import TokenStream.Scan.Rule

/-!
# The forms of lexemes

What can be said of a lexeme from its form alone: with which characters it starts and ends and
which others it can hold, what it consists of if the form is that of a truth value or of a
character, and which kinds it can have.

## Main definitions

* `Rule.canStart`, `Rule.canEnd` — the first and the last characters of the lexemes of a rule.
* `Rule.canHold` — the characters of which they consist.

## Main results

* `Rule.lexeme?_eq_none_of_canStart`, `Rule.canEnd_getLast` — a rule recognises nothing that
  starts otherwise, and nothing that ends otherwise.
* `Rule.canHold_of_mem` — numbers, truth values and words hold nothing but digits, points and the
  characters of words.
* `Lexeme.boolean?_eq_some_iff`, `Lexeme.character?_eq_some_iff` — what these forms recognise.
* `Rule.classify_ne_unknown`, `Rule.classify_ne_endOfLine` — what no lexeme is.
-/

namespace TokenStream

namespace Rule

/-- The characters with which the lexemes of a rule start. -/
def canStart : Rule → Char → Bool
  | float, c | integer, c => isDecimalDigit c
  | boolean, c => c == 't' || c == 'f'
  | string, c => c == '\x22'
  | char, c => c == '\x27'
  | identifier, c => Lexeme.isWordStart c

/-- The characters with which the lexemes of a rule end. -/
def canEnd : Rule → Char → Bool
  | float, c | integer, c => isDecimalDigit c
  | boolean, c => c == 'e'
  | string, c => c == '\x22'
  | char, c => c == '\x27'
  | identifier, c => Lexeme.isWordPart c

/-- The characters that the lexemes of a rule can hold: in quotes, any. -/
def canHold : Rule → Char → Bool
  | float, c => isDecimalDigit c || c == '.'
  | integer, c => isDecimalDigit c
  | boolean, c | identifier, c => Lexeme.isWordPart c
  | string, _ | char, _ => true

end Rule

namespace Lexeme

/-! ### Characters of words -/

/-- The characters with which words start lie between the ASCII digits and the end of the small
letters. -/
theorem toNat_bounds_of_isWordStart {c : Char} (h : isWordStart c = true) :
    65 ≤ c.toNat ∧ c.toNat ≤ 122 := by
  unfold isWordStart Char.isAlpha Char.isUpper Char.isLower at h
  simp only [Bool.or_eq_true, Bool.and_eq_true, decide_eq_true_eq, beq_iff_eq, ge_iff_le,
    UInt32.le_iff_toNat_le] at h
  change ((65 ≤ c.toNat ∧ c.toNat ≤ 90) ∨ (97 ≤ c.toNat ∧ c.toNat ≤ 122)) ∨ c = '_' at h
  rcases h with (h | h) | rfl
  · omega
  · omega
  · decide

theorem isWordPart_of_isWordStart {c : Char} (h : isWordStart c = true) : isWordPart c = true := by
  simp only [isWordStart, isWordPart, Char.isAlphanum, Bool.or_eq_true] at h ⊢
  exact h.imp_left Or.inl

/-- The other characters with which words go on are the ASCII digits. -/
theorem isWordStart_or_digit_of_isWordPart {c : Char} (h : isWordPart c = true) :
    isWordStart c = true ∨ (48 ≤ c.toNat ∧ c.toNat ≤ 57) := by
  unfold isWordPart Char.isAlphanum at h
  unfold isWordStart
  rw [Bool.or_right_comm, Bool.or_eq_true] at h
  refine h.imp_right fun hdigit => ?_
  unfold Char.isDigit at hdigit
  simp only [Bool.and_eq_true, decide_eq_true_eq, ge_iff_le, UInt32.le_iff_toNat_le] at hdigit
  exact hdigit

/-! ### Runs of characters -/

theorem takeWhile_append_cons {p : Char → Bool} {stop : Char} (h : p stop = false)
    (front back : List Char) : (front ++ stop :: back).takeWhile p = front.takeWhile p := by
  induction front with
  | nil => rw [List.nil_append, List.takeWhile_cons_of_neg (by simp [h])]; rfl
  | cons c front ih => rw [List.cons_append, List.takeWhile_cons, List.takeWhile_cons, ih]

theorem dropWhile_append_cons {p : Char → Bool} {stop : Char} (h : p stop = false)
    (front back : List Char) :
    (front ++ stop :: back).dropWhile p = front.dropWhile p ++ stop :: back := by
  induction front with
  | nil => rw [List.nil_append, List.dropWhile_cons_of_neg (by simp [h])]; rfl
  | cons c front ih =>
    rw [List.cons_append, List.dropWhile_cons, List.dropWhile_cons, ih]
    split <;> rfl

/-! ### Where a lexeme starts -/

theorem integer?_eq_none {c : Char} (rest : List Char) (h : isDecimalDigit c = false) :
    integer? (c :: rest) = none := by
  rw [integer?, List.takeWhile_cons_of_neg (by simp [h])]

theorem float?_eq_none {c : Char} (rest : List Char) (h : isDecimalDigit c = false) :
    float? (c :: rest) = none := by
  rw [float?, integer?_eq_none rest h]
  rfl

theorem boolean?_eq_none {c : Char} (rest : List Char) (ht : c ≠ 't') (hf : c ≠ 'f') :
    boolean? (c :: rest) = none := by
  unfold boolean?
  split
  · next h => exact absurd (List.cons.inj h).1 ht
  · next h => exact absurd (List.cons.inj h).1 hf
  · rfl

theorem string?_eq_none {c : Char} (rest : List Char) (h : c ≠ '\x22') :
    string? (c :: rest) = none := by
  unfold string?
  split
  · next heq => exact absurd (List.cons.inj heq).1 h
  · rfl

theorem character?_eq_none {c : Char} (rest : List Char) (h : c ≠ '\x27') :
    character? (c :: rest) = none := by
  unfold character?
  split
  · next heq => exact absurd (List.cons.inj heq).1 h
  · next heq => exact absurd (List.cons.inj heq).1 h
  · rfl

theorem word?_eq_none {c : Char} (rest : List Char) (h : isWordStart c = false) :
    word? (c :: rest) = none := by
  rw [word?, h]
  rfl

/-! ### Where a lexeme ends -/

/-- The last character of a non-empty run is one of the run. -/
private theorem of_getLast_takeWhile {p : Char → Bool} {text : List Char} {last : Char}
    (h : (text.takeWhile p).getLast? = some last) : p last = true :=
  List.all_eq_true.mp List.all_takeWhile last (List.mem_of_getLast? h)

theorem integer?_getLast {text lexeme : List Char} {last : Char}
    (h : integer? text = some lexeme) (hlast : lexeme.getLast? = some last) :
    isDecimalDigit last = true := by
  unfold integer? at h
  split at h
  · contradiction
  · cases h
    exact of_getLast_takeWhile hlast

theorem float?_getLast {text lexeme : List Char} {last : Char}
    (h : float? text = some lexeme) (hlast : lexeme.getLast? = some last) :
    isDecimalDigit last = true := by
  simp only [float?, Option.bind_eq_bind, Option.bind_eq_some_iff] at h
  obtain ⟨whole, -, h⟩ := h
  split at h
  · next rest _ =>
    simp only [Option.bind_eq_some_iff, Option.pure_def, Option.some.injEq] at h
    obtain ⟨fraction, hfraction, rfl⟩ := h
    rw [List.getLast?_append, List.getLast?_cons_of_ne_nil (integer?_ne_nil hfraction),
      List.getLast?_eq_some_getLast (integer?_ne_nil hfraction), Option.some_or,
      ← List.getLast?_eq_some_getLast] at hlast
    exact integer?_getLast hfraction hlast
  · contradiction

theorem boolean?_getLast {text lexeme : List Char} {last : Char}
    (h : boolean? text = some lexeme) (hlast : lexeme.getLast? = some last) : last = 'e' := by
  unfold boolean? at h
  split at h
  · cases h; simpa using hlast.symm
  · cases h; simpa using hlast.symm
  · contradiction

theorem word?_getLast {text lexeme : List Char} {last : Char}
    (h : word? text = some lexeme) (hlast : lexeme.getLast? = some last) :
    isWordPart last = true := by
  cases text with
  | nil => simp [word?] at h
  | cons c rest =>
    simp only [word?] at h
    split at h
    · next hc =>
      cases h
      rw [List.getLast?_cons] at hlast
      cases hrest : (rest.takeWhile isWordPart).getLast? with
      | none =>
        rw [hrest] at hlast
        cases hlast
        exact isWordPart_of_isWordStart hc
      | some found =>
        rw [hrest] at hlast
        cases hlast
        exact of_getLast_takeWhile hrest
    · contradiction

theorem toFirstQuote?_getLast {text found : List Char} (h : toFirstQuote? text = some found) :
    found.getLast? = some '\x22' := by
  fun_induction toFirstQuote? text generalizing found with
  | case1 => contradiction
  | case2 => cases h; rfl
  | case3 c rest ih =>
    obtain ⟨tail, htail, rfl⟩ := Option.map_eq_some_iff.mp h
    rw [List.getLast?_cons_cons, List.getLast?_cons, ih htail]
    rfl
  | case4 c rest _ _ ih =>
    obtain ⟨tail, htail, rfl⟩ := Option.map_eq_some_iff.mp h
    rw [List.getLast?_cons, ih htail]
    rfl

theorem toLastQuote?_getLast {text found : List Char} (h : toLastQuote? text = some found) :
    found.getLast? = some '\x22' := by
  fun_induction toLastQuote? text generalizing found with
  | case1 => contradiction
  | case2 c rest tail htail ih =>
    cases h
    rw [List.getLast?_cons, ih htail]
    rfl
  | case3 rest _ _ => cases h; rfl
  | case4 => contradiction

theorem string?_getLast {text lexeme : List Char} (h : string? text = some lexeme) :
    lexeme.getLast? = some '\x22' := by
  unfold string? at h
  split at h
  · obtain ⟨found, hfound, rfl⟩ := Option.map_eq_some_iff.mp h
    have hlast : found.getLast? = some '\x22' := by
      rw [Option.or_eq_some_iff] at hfound
      rcases hfound with hfirst | ⟨-, hlast⟩
      · exact toFirstQuote?_getLast hfirst
      · exact toLastQuote?_getLast hlast
    rw [List.getLast?_cons, hlast]
    rfl
  · contradiction

theorem character?_getLast {text lexeme : List Char} (h : character? text = some lexeme) :
    lexeme.getLast? = some '\x27' := by
  unfold character? at h
  split at h
  · split at h
    · contradiction
    · cases h; rfl
  · split at h
    · contradiction
    · cases h; rfl
  · contradiction

/-! ### What a lexeme holds -/

theorem of_mem_integer? {text lexeme : List Char} {c : Char} (h : integer? text = some lexeme)
    (hc : c ∈ lexeme) : isDecimalDigit c = true := by
  unfold integer? at h
  split at h
  · contradiction
  · cases h
    exact List.all_eq_true.mp List.all_takeWhile c hc

theorem of_mem_float? {text lexeme : List Char} {c : Char} (h : float? text = some lexeme)
    (hc : c ∈ lexeme) : isDecimalDigit c = true ∨ c = '.' := by
  simp only [float?, Option.bind_eq_bind, Option.bind_eq_some_iff] at h
  obtain ⟨whole, hwhole, h⟩ := h
  split at h
  · next rest _ =>
    simp only [Option.bind_eq_some_iff, Option.pure_def, Option.some.injEq] at h
    obtain ⟨fraction, hfraction, rfl⟩ := h
    rw [List.mem_append, List.mem_cons] at hc
    rcases hc with hc | hc | hc
    · exact .inl (of_mem_integer? hwhole hc)
    · exact .inr hc
    · exact .inl (of_mem_integer? hfraction hc)
  · contradiction

theorem of_mem_word? {text lexeme : List Char} {c : Char} (h : word? text = some lexeme)
    (hc : c ∈ lexeme) : isWordPart c = true := by
  cases text with
  | nil => contradiction
  | cons first rest =>
    rw [word?] at h
    split at h
    · next hstart =>
      cases h
      rcases List.mem_cons.mp hc with rfl | hrest
      · exact isWordPart_of_isWordStart hstart
      · exact List.all_eq_true.mp List.all_takeWhile c hrest
    · contradiction

/-! ### Exact forms -/

/-- A truth value is recognised where the text starts with it. -/
theorem boolean?_eq_some_iff {text lexeme : List Char} :
    boolean? text = some lexeme ↔
      (lexeme = "true".toList ∨ lexeme = "false".toList) ∧ lexeme <+: text := by
  constructor
  · intro h
    refine ⟨?_, boolean?_isPrefix h⟩
    unfold boolean? at h
    split at h
    · exact .inl (Option.some.inj h).symm
    · exact .inr (Option.some.inj h).symm
    · contradiction
  · rintro ⟨rfl | rfl, rest, rfl⟩ <;> rfl

/-- A character in quotes is recognised where the text starts with it, with a backslash or without;
a backslash by itself, only where no third quote follows. -/
theorem character?_eq_some_iff {text lexeme : List Char} :
    character? text = some lexeme ↔
      (∃ c, c ≠ '\n' ∧ lexeme = ['\x27', '\\', c, '\x27'] ∧ lexeme <+: text) ∨
        ∃ c, c ≠ '\x27' ∧ lexeme = ['\x27', c, '\x27'] ∧ lexeme <+: text ∧
          ¬ (c = '\\' ∧ text[3]? = some '\x27') := by
  constructor
  · intro h
    have hstarts := character?_isPrefix h
    unfold character? at h
    split at h
    · split at h
      · contradiction
      · next hc => cases h; exact .inl ⟨_, hc, rfl, hstarts⟩
    · next c rest hother =>
      split at h
      · contradiction
      · next hc =>
        cases h
        refine .inr ⟨c, hc, rfl, hstarts, ?_⟩
        rintro ⟨hbackslash, hquote⟩
        rw [List.getElem?_cons_succ, List.getElem?_cons_succ, List.getElem?_cons_succ,
          ← List.head?_eq_getElem?] at hquote
        obtain ⟨tail, htail⟩ := List.head?_eq_some_iff.mp hquote
        exact hother tail hbackslash htail
    · contradiction
  · rintro (⟨c, hc, rfl, rest, rfl⟩ | ⟨c, hc, rfl, ⟨rest, rfl⟩, hother⟩)
    · exact if_neg hc
    · unfold character?
      split
      · next h =>
        simp only [List.cons_append, List.nil_append, List.cons.injEq] at h
        obtain ⟨-, rfl, -, rfl⟩ := h
        exact absurd ⟨rfl, rfl⟩ hother
      · next h =>
        simp only [List.cons_append, List.nil_append, List.cons.injEq] at h
        rw [← h.2.1, if_neg hc]
      · next h => exact absurd rfl (h c rest)

end Lexeme

namespace Rule

/-- A rule recognises nothing that does not start like its lexemes. -/
theorem lexeme?_eq_none_of_canStart {rule : Rule} {c : Char} (rest : List Char)
    (h : rule.canStart c = false) : rule.lexeme? (c :: rest) = none := by
  cases rule with
  | float => exact Lexeme.float?_eq_none rest h
  | integer => exact Lexeme.integer?_eq_none rest h
  | boolean =>
    simp only [canStart, Bool.or_eq_false_iff, beq_eq_false_iff_ne] at h
    exact Lexeme.boolean?_eq_none rest h.1 h.2
  | string => exact Lexeme.string?_eq_none rest (beq_eq_false_iff_ne.mp h)
  | char => exact Lexeme.character?_eq_none rest (beq_eq_false_iff_ne.mp h)
  | identifier => exact Lexeme.word?_eq_none rest h

/-- What a rule recognises ends like its lexemes. -/
theorem canEnd_getLast {rule : Rule} {text lexeme : List Char} {last : Char}
    (h : rule.lexeme? text = some lexeme) (hlast : lexeme.getLast? = some last) :
    rule.canEnd last = true := by
  cases rule with
  | float => exact Lexeme.float?_getLast h hlast
  | integer => exact Lexeme.integer?_getLast h hlast
  | boolean => exact beq_iff_eq.mpr (Lexeme.boolean?_getLast h hlast)
  | string =>
    rw [show lexeme.getLast? = some '\x22' from Lexeme.string?_getLast h] at hlast
    cases hlast
    rfl
  | char =>
    rw [show lexeme.getLast? = some '\x27' from Lexeme.character?_getLast h] at hlast
    cases hlast
    rfl
  | identifier => exact Lexeme.word?_getLast h hlast

/-- What a rule recognises holds what its lexemes can hold. -/
theorem canHold_of_mem {rule : Rule} {text lexeme : List Char} {c : Char}
    (h : rule.lexeme? text = some lexeme) (hc : c ∈ lexeme) : rule.canHold c = true := by
  cases rule with
  | float =>
    rw [canHold, Bool.or_eq_true, beq_iff_eq]
    exact Lexeme.of_mem_float? h hc
  | integer => exact Lexeme.of_mem_integer? h hc
  | boolean =>
    obtain ⟨hform, -⟩ := Lexeme.boolean?_eq_some_iff.mp h
    have hall : lexeme.all Lexeme.isWordPart = true := by
      rcases hform with rfl | rfl
      · decide
      · decide
    exact List.all_eq_true.mp hall c hc
  | string => rfl
  | char => rfl
  | identifier => exact Lexeme.of_mem_word? h hc

/-! ### The kind of a lexeme -/

theorem classify_ne_unknown (rule : Rule) (lexeme : List Char) :
    rule.classify lexeme ≠ .unknown := by
  unfold classify
  split
  · decide
  · cases rule <;> decide

theorem classify_ne_endOfLine (rule : Rule) (lexeme : List Char) :
    rule.classify lexeme ≠ .endOfLine := by
  unfold classify
  split
  · decide
  · cases rule <;> decide

end Rule

end TokenStream
