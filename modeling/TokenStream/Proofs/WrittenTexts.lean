import TokenStream.Json.Lexeme
import TokenStream.Json.Write

/-!
# Texts and back

A text is written in printable ASCII: quotes, backslashes and a few control characters by a letter
after a backslash, all else outside that range by the numbers of its units.  Reading goes back in
two steps, first from the written form to units and then from units to characters, and each step
undoes one step of writing.

## Main results

* `Hex.value4?_digits` — four digits are read as the number that they write.
* `Units.decode_flatMap_encode` — the units of characters stand for these characters.
* `Json.readUnits_flatMap_escape` — **the units of a written text are read up to its quote**.
* `Json.mem_writeText` — a written text is printable ASCII.
-/

namespace TokenStream

/-! ### Digits -/

namespace Hex

theorem digit?_digit : ∀ value < 16, digit? (digit value) = some value := by decide

theorem digit_mem_printable : ∀ value < 16, ' ' ≤ digit value ∧ digit value ≤ '~' := by decide

/-- Four digits are read as the number that they write. -/
theorem value4?_digits {n : Nat} (h : n < 0x10000) :
    ∃ c₃ c₂ c₁ c₀, digits 4 n = [c₃, c₂, c₁, c₀] ∧ value4? c₃ c₂ c₁ c₀ = some n := by
  refine ⟨_, _, _, _, rfl, ?_⟩
  rw [value4?, digit?_digit _ (by omega), digit?_digit _ (by omega), digit?_digit _ (by omega),
    digit?_digit _ (by omega)]
  have hsum : ((n / 16 / 16 / 16 % 16 * 16 + n / 16 / 16 % 16) * 16 + n / 16 % 16) * 16 + n % 16 =
      n := by omega
  exact congrArg some hsum

theorem mem_digits {width n : Nat} {c : Char} (h : c ∈ digits width n) : ' ' ≤ c ∧ c ≤ '~' := by
  induction width generalizing n with
  | zero => contradiction
  | succ width ih =>
    rw [digits, List.mem_append, List.mem_singleton] at h
    rcases h with hfront | rfl
    · exact ih hfront
    · exact digit_mem_printable _ (Nat.mod_lt _ (by decide))

end Hex

/-! ### Units -/

namespace Units

theorem toNat_bounds (c : Char) :
    c.toNat < 0xD800 ∨ 0xDFFF < c.toNat ∧ c.toNat < 0x110000 := c.valid

theorem lt_of_mem_encode {c : Char} {unit : Nat} (h : unit ∈ encode c) : unit < 0x10000 := by
  have hbounds := toNat_bounds c
  unfold encode at h
  split at h
  · rw [List.mem_singleton] at h
    omega
  · rw [List.mem_cons, List.mem_singleton] at h
    omega

theorem encode_eq_singleton {c : Char} (h : c.toNat < 0x10000) : encode c = [c.toNat] := if_pos h

/-- A character stands for itself among code points. -/
theorem character_toNat (c : Char) : character c.toNat = c := by
  have hvalid : c.toNat.isValidChar := c.valid
  rw [character, if_pos hvalid, Char.ofNat_toNat]

/-- The units of a character, before others, stand for the character. -/
theorem decode_encode_append (c : Char) (units : List Nat) :
    decode (encode c ++ units) = c :: decode units := by
  have hbounds := toNat_bounds c
  unfold encode
  split
  · -- A single unit is no high surrogate, so the next one has no say.
    have hsingle : isHigh c.toNat = false := by
      unfold isHigh
      rw [Bool.and_eq_false_iff, decide_eq_false_iff_not, decide_eq_false_iff_not]
      omega
    cases units with
    | nil => exact congrArg (fun c => [c]) (character_toNat c)
    | cons unit units =>
      rw [List.singleton_append, decode, hsingle, Bool.false_and, if_neg (by simp),
        character_toNat]
  · -- A pair of surrogates is joined again.
    next hlarge =>
    have hhigh : isHigh (0xD800 + (c.toNat - 0x10000) / 0x400) = true := by
      unfold isHigh
      rw [Bool.and_eq_true, decide_eq_true_eq, decide_eq_true_eq]
      omega
    have hlow : isLow (0xDC00 + (c.toNat - 0x10000) % 0x400) = true := by
      unfold isLow
      rw [Bool.and_eq_true, decide_eq_true_eq, decide_eq_true_eq]
      omega
    have hjoin : join (0xD800 + (c.toNat - 0x10000) / 0x400)
        (0xDC00 + (c.toNat - 0x10000) % 0x400) = c.toNat := by
      unfold join
      omega
    rw [List.cons_append, List.singleton_append, decode, hhigh, hlow, Bool.and_true, if_pos rfl,
      hjoin, character_toNat]

/-- The units of characters in a row stand for these characters. -/
theorem decode_flatMap_encode (cs : List Char) : decode (cs.flatMap encode) = cs := by
  induction cs with
  | nil => rfl
  | cons c cs ih => rw [List.flatMap_cons, decode_encode_append, ih]

end Units

namespace Json

/-! ### Escapes -/

/-- A letter escape is read as the character for which it is written, and is printable. -/
theorem escaped?_of_letterEscape? {c letter : Char} (h : letterEscape? c = some letter) :
    escaped? letter = some c ∧ letter ≠ 'u' ∧ (' ' ≤ letter ∧ letter ≤ '~') ∧ c.toNat < 0x80 := by
  unfold letterEscape? at h
  split at h
  case h_8 => contradiction
  all_goals
    cases h
    decide

section Reading

variable {opening rest after : List Char} {units : List Nat}

/-- A unit in four digits is read as that unit. -/
theorem readUnits_unit {unit : Nat} (hunit : unit < 0x10000)
    (h : readUnits opening rest = .ok (units, after)) :
    readUnits opening ('\\' :: 'u' :: Hex.digits 4 unit ++ rest) = .ok (unit :: units, after) := by
  obtain ⟨c₃, c₂, c₁, c₀, hdigits, hvalue⟩ := Hex.value4?_digits hunit
  -- Four digits are an escape only with a character behind them, at the latest the closing quote.
  cases rest with
  | nil => contradiction
  | cons c rest =>
    rw [hdigits]
    simp only [List.cons_append, List.nil_append, readUnits, hvalue, h]
    rfl

theorem readUnits_units {written : List Nat} (hwritten : ∀ unit ∈ written, unit < 0x10000)
    (h : readUnits opening rest = .ok (units, after)) :
    readUnits opening
        ((written.flatMap fun unit => '\\' :: 'u' :: Hex.digits 4 unit) ++ rest) =
      .ok (written ++ units, after) := by
  induction written with
  | nil => exact h
  | cons unit written ih =>
    rw [List.forall_mem_cons] at hwritten
    rw [List.flatMap_cons, List.append_assoc]
    exact readUnits_unit hwritten.1 (ih hwritten.2)

/-- A character that stands for itself is read as its code point. -/
theorem readUnits_plain {c : Char} (hquote : c ≠ '\x22') (hbackslash : c ≠ '\\')
    (hprintable : ' ' ≤ c) (h : readUnits opening rest = .ok (units, after)) :
    readUnits opening (c :: rest) = .ok (c.toNat :: units, after) := by
  have hcontrol : ¬ c.toNat < 0x20 := Nat.not_lt.mpr hprintable
  rw [readUnits.eq_7 opening c rest hquote (fun _ _ _ _ _ _ hc _ => hbackslash hc)
    (fun _ hc _ => hbackslash hc) (fun hc _ => hbackslash hc) (fun _ _ hc _ => hbackslash hc),
    if_neg hcontrol, h]
  rfl

/-- A letter after a backslash is read as the character that it stands for. -/
theorem readUnits_letter {c letter : Char} (hletter : letterEscape? c = some letter)
    (h : readUnits opening rest = .ok (units, after)) :
    readUnits opening ('\\' :: letter :: rest) = .ok (c.toNat :: units, after) := by
  obtain ⟨hescaped, hunit, -⟩ := escaped?_of_letterEscape? hletter
  rw [readUnits.eq_6 opening letter rest (fun _ _ _ _ _ _ hu _ => hunit hu) hunit, hescaped]
  simp only [h]
  rfl

/-- A character in its written form is read as its units. -/
theorem readUnits_escape (c : Char) (h : readUnits opening rest = .ok (units, after)) :
    readUnits opening (escape c ++ rest) = .ok (Units.encode c ++ units, after) := by
  cases hletter : letterEscape? c with
  | some letter =>
    obtain ⟨-, -, -, hc⟩ := escaped?_of_letterEscape? hletter
    rw [escape, hletter, Units.encode_eq_singleton (by omega)]
    exact readUnits_letter hletter h
  | none =>
    rw [escape, hletter]
    simp only
    split
    · next hprintable =>
      have hquote : c ≠ '\x22' := by
        rintro rfl
        contradiction
      have hbackslash : c ≠ '\\' := by
        rintro rfl
        contradiction
      have hc : c.toNat ≤ 0x7E := hprintable.2
      rw [Units.encode_eq_singleton (by omega)]
      exact readUnits_plain hquote hbackslash hprintable.1 h
    · exact readUnits_units (fun unit => Units.lt_of_mem_encode) h

/-- **The units of a written text are read up to its quote.** -/
theorem readUnits_flatMap_escape (opening : List Char) (cs after : List Char) :
    readUnits opening (cs.flatMap escape ++ '\x22' :: after) =
      .ok (cs.flatMap Units.encode, after) := by
  induction cs with
  | nil => rw [List.flatMap_nil, List.nil_append, readUnits]; rfl
  | cons c cs ih =>
    rw [List.flatMap_cons, List.flatMap_cons, List.append_assoc]
    exact readUnits_escape c ih

end Reading

/-- **A written text is read as the text that it has been written for.** -/
theorem readText_writeText (s : String) (after : List Char) :
    Lexeme.readText (s.toList.flatMap escape ++ '\x22' :: after) = (.text s, after) := by
  rw [Lexeme.readText, readUnits_flatMap_escape]
  simp only [Units.decode_flatMap_encode, String.ofList_toList]

/-! ### Characters of a written text -/

theorem mem_escape {c d : Char} (h : d ∈ escape c) : ' ' ≤ d ∧ d ≤ '~' := by
  have hbackslash : ' ' ≤ '\\' ∧ '\\' ≤ '~' := by decide
  have hunit : ' ' ≤ 'u' ∧ 'u' ≤ '~' := by decide
  unfold escape at h
  split at h
  · next letter hletter =>
    rw [List.mem_cons, List.mem_singleton] at h
    rcases h with rfl | rfl
    · exact hbackslash
    · exact (escaped?_of_letterEscape? hletter).2.2.1
  · split at h
    · next hprintable =>
      rw [List.mem_singleton.mp h]
      exact hprintable
    · obtain ⟨unit, -, hd⟩ := List.mem_flatMap.mp h
      rw [List.mem_cons, List.mem_cons] at hd
      rcases hd with rfl | rfl | hdigit
      · exact hbackslash
      · exact hunit
      · exact Hex.mem_digits hdigit

/-- A written text is printable ASCII. -/
theorem mem_writeText {s : String} {c : Char} (h : c ∈ writeText s) : ' ' ≤ c ∧ c ≤ '~' := by
  have hquote : ' ' ≤ '\x22' ∧ '\x22' ≤ '~' := by decide
  rw [writeText, List.mem_append, List.mem_cons, List.mem_singleton] at h
  rcases h with (rfl | hinside) | rfl
  · exact hquote
  · obtain ⟨d, -, hc⟩ := List.mem_flatMap.mp hinside
    exact mem_escape hc
  · exact hquote

end Json

end TokenStream
