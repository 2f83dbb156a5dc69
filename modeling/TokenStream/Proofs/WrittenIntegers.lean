import TokenStream.Json.Lexeme

/-!
# Integers and back

An integer is written without superfluous zeros, and so as one numeral, which is read back whole
wherever nothing stands after it that a numeral could go on with.

## Main definitions

* `Numeral.Ends` — a text with which no numeral goes on.

## Main results

* `Numeral.read?_digits` — a written integer is read as a numeral that stands for it.
* `Json.read_digits` — **a written integer is the lexeme of that integer**.
-/

namespace TokenStream

/-! ### Decimal digits -/

namespace Integer

theorem digitChar_ne_zero : ∀ n < 10, 0 < n → n.digitChar ≠ '0' := by decide

/-- A number is written with a digit in front, which is a zero for the number zero only. -/
theorem exists_toDigits_eq_cons (n : Nat) :
    ∃ c ds, Nat.toDigits 10 n = c :: ds ∧ c.isDigit = true ∧ (0 < n → c ≠ '0') := by
  induction n using Nat.strongRecOn with
  | ind n ih =>
    by_cases hsmall : n < 10
    · have hdigits := Nat.toDigits_of_lt_base hsmall
      have hmem : n.digitChar ∈ Nat.toDigits 10 n := by
        rw [hdigits]
        exact List.mem_singleton_self _
      have hdigit := Nat.isDigit_of_mem_toDigits (by decide) (by decide) hmem
      exact ⟨_, _, hdigits, hdigit, digitChar_ne_zero n hsmall⟩
    · -- The first digit is that of the tenth part.
      obtain ⟨c, ds, htenth, hdigit, hzero⟩ := ih (n / 10) (by omega)
      refine ⟨c, ds ++ [(n % 10).digitChar], ?_, hdigit, fun _ => hzero (by omega)⟩
      rw [Nat.toDigits_eq_if (by decide), if_neg hsmall, htenth, List.cons_append]

theorem mem_toDigits_printable {n : Nat} {c : Char} (h : c ∈ Nat.toDigits 10 n) :
    ' ' ≤ c ∧ c ≤ '~' := by
  have hdigit := Nat.isDigit_of_mem_toDigits (by decide) (by decide) h
  unfold Char.isDigit at hdigit
  rw [Bool.and_eq_true, decide_eq_true_eq, decide_eq_true_eq] at hdigit
  exact ⟨UInt32.le_trans (by decide) hdigit.1, UInt32.le_trans hdigit.2 (by decide)⟩

/-- A written integer consists of printable characters. -/
theorem mem_digits {n : Int} {c : Char} (h : c ∈ digits n) : ' ' ≤ c ∧ c ≤ '~' := by
  cases n with
  | ofNat n => exact mem_toDigits_printable h
  | negSucc n =>
    rcases List.mem_cons.mp h with rfl | hmem
    · decide
    · exact mem_toDigits_printable hmem

end Integer

/-! ### Numerals -/

namespace Numeral

/-- A text with which no numeral goes on: it is empty or starts with something else than a digit, a
point or the mark of an exponent. -/
def Ends (text : List Char) : Prop :=
  ∀ c ∈ text.head?, c.isDigit = false ∧ c ≠ '.' ∧ c ≠ 'e' ∧ c ≠ 'E'

@[simp] theorem ends_nil : Ends [] := by
  intro c h
  contradiction

theorem ends_cons {c : Char} {text : List Char} :
    Ends (c :: text) ↔ c.isDigit = false ∧ c ≠ '.' ∧ c ≠ 'e' ∧ c ≠ 'E' := by
  simp [Ends]

variable {rest : List Char}

theorem readDigits_append {ds : List Char} (hdigits : ∀ c ∈ ds, c.isDigit = true)
    (hrest : Ends rest) : readDigits (ds ++ rest) = (ds, rest) := by
  have htake : rest.takeWhile Char.isDigit = [] := by
    cases rest with
    | nil => rfl
    | cons c rest => rw [List.takeWhile_cons, (ends_cons.mp hrest).1]; rfl
  have hdrop : rest.dropWhile Char.isDigit = rest := by
    cases rest with
    | nil => rfl
    | cons c rest => rw [List.dropWhile_cons, (ends_cons.mp hrest).1]; rfl
  rw [readDigits, List.takeWhile_append_of_pos hdigits, List.dropWhile_append_of_pos hdigits, htake,
    hdrop, List.append_nil]

theorem readWhole_toDigits (n : Nat) (hrest : Ends rest) :
    readWhole (Nat.toDigits 10 n ++ rest) = (Nat.toDigits 10 n, rest) := by
  rcases Nat.eq_zero_or_pos n with rfl | hpos
  · rfl
  · -- There is no zero in front, which would end the whole part.
    obtain ⟨c, ds, hdigits, -, hzero⟩ := Integer.exists_toDigits_eq_cons n
    have hhead : ∀ tail, Nat.toDigits 10 n ++ rest ≠ '0' :: tail := by
      intro tail heq
      rw [hdigits] at heq
      exact hzero hpos (List.cons.inj heq).1
    rw [readWhole.eq_2 _ hhead]
    apply readDigits_append _ hrest
    intro d hd
    exact Nat.isDigit_of_mem_toDigits (by decide) (by decide) hd

theorem readFraction_of_ends (hrest : Ends rest) : readFraction rest = ([], rest) := by
  cases rest with
  | nil => rfl
  | cons c rest =>
    obtain ⟨-, hpoint, -, -⟩ := ends_cons.mp hrest
    apply readFraction.eq_2
    intro tail heq
    exact hpoint (List.cons.inj heq).1

theorem readExponent_of_ends (hrest : Ends rest) : readExponent rest = (none, rest) := by
  cases rest with
  | nil => rfl
  | cons c rest =>
    obtain ⟨-, -, hsmall, hcapital⟩ := ends_cons.mp hrest
    rw [readExponent, if_neg (not_or.mpr ⟨hsmall, hcapital⟩)]

theorem readMinus_toDigits (n : Nat) (rest : List Char) :
    readMinus (Nat.toDigits 10 n ++ rest) = (false, Nat.toDigits 10 n ++ rest) := by
  obtain ⟨c, ds, hdigits, hdigit, -⟩ := Integer.exists_toDigits_eq_cons n
  apply readMinus.eq_2
  intro tail heq
  rw [hdigits] at heq
  obtain ⟨rfl, -⟩ := List.cons.inj heq
  contradiction

/-- The value of a written number. -/
theorem value_toDigits (n : Nat) : value (Nat.toDigits 10 n) = n :=
  Nat.ofDigitChars_toDigits (by decide) (by decide)

/-- What is read at a minus sign, or at none, before a written number. -/
theorem read?_of_readMinus {text : List Char} {negative : Bool} {n : Nat} (hrest : Ends rest)
    (hminus : readMinus text = (negative, Nat.toDigits 10 n ++ rest)) :
    read? text = some (⟨negative, Nat.toDigits 10 n, [], none⟩, rest) := by
  obtain ⟨c, ds, hdigits, -, -⟩ := Integer.exists_toDigits_eq_cons n
  have hwhole := readWhole_toDigits n hrest
  rw [read?, hminus]
  simp only [hwhole]
  rw [hdigits]
  simp only [readFraction_of_ends hrest, readExponent_of_ends hrest]

/-- A written integer is read as a numeral that stands for that integer. -/
theorem read?_digits (n : Int) (hrest : Ends rest) :
    ∃ numeral, read? (Integer.digits n ++ rest) = some (numeral, rest) ∧
      numeral.toInt? = some n := by
  cases n with
  | ofNat n =>
    refine ⟨_, read?_of_readMinus hrest (readMinus_toDigits n rest), ?_⟩
    exact congrArg (fun m : Nat => some (m : Int)) (value_toDigits n)
  | negSucc n =>
    refine ⟨_, read?_of_readMinus hrest rfl, ?_⟩
    exact congrArg (fun m : Nat => some (-(m : Int))) (value_toDigits (n + 1))

end Numeral

/-! ### Integers as lexemes -/

namespace Json

theorem ne_of_isDigit {c mark : Char} (hdigit : c.isDigit = true) (hmark : mark.isDigit = false) :
    mark ≠ c := by
  rintro rfl
  rw [hdigit] at hmark
  contradiction

/-- No word starts with a digit. -/
theorem word?_of_isDigit {c : Char} (hdigit : c.isDigit = true) (rest : List Char) :
    word? (c :: rest) = none := by
  simp [word?, words, List.isPrefixOf, ne_of_isDigit hdigit]

/-- No word starts with a minus sign before a digit. -/
theorem word?_minus_of_isDigit {c : Char} (hdigit : c.isDigit = true) (rest : List Char) :
    word? ('-' :: c :: rest) = none := by
  simp [word?, words, List.isPrefixOf, ne_of_isDigit hdigit]

theorem read_eq_readSimple {c : Char} (h : c.isDigit = true ∨ c = '-') (rest : List Char) :
    isWhitespace c = false ∧ Lexeme.read c rest = Lexeme.readSimple c rest := by
  rcases h with hdigit | rfl
  · have hne : ∀ {mark : Char}, mark.isDigit = false → c ≠ mark := by
      intro mark hmark
      exact (ne_of_isDigit hdigit hmark).symm
    constructor
    · simp [isWhitespace, hne]
    · unfold Lexeme.read
      split
      case h_8 => rfl
      all_goals contradiction
  · exact ⟨rfl, rfl⟩

/-- A written integer starts with a digit or a minus sign, and with no word. -/
theorem exists_digits_append_eq_cons (n : Int) (rest : List Char) :
    ∃ c tail, Integer.digits n ++ rest = c :: tail ∧ (c.isDigit = true ∨ c = '-') ∧
      word? (c :: tail) = none := by
  cases n with
  | ofNat n =>
    obtain ⟨c, ds, hdigits, hdigit, -⟩ := Integer.exists_toDigits_eq_cons n
    refine ⟨c, ds ++ rest, ?_, Or.inl hdigit, word?_of_isDigit hdigit _⟩
    rw [Integer.digits, hdigits, List.cons_append]
  | negSucc n =>
    obtain ⟨c, ds, hdigits, hdigit, -⟩ := Integer.exists_toDigits_eq_cons (n + 1)
    refine ⟨'-', c :: ds ++ rest, ?_, Or.inr rfl, word?_minus_of_isDigit hdigit _⟩
    rw [Integer.digits, hdigits, List.cons_append]

/-- **A written integer is the lexeme of that integer.** -/
theorem read_digits (n : Int) {rest : List Char} (hrest : Numeral.Ends rest) :
    ∃ c tail, Integer.digits n ++ rest = c :: tail ∧ isWhitespace c = false ∧
      Lexeme.read c tail = (.simple (.int n), rest) := by
  obtain ⟨c, tail, htext, hc, hword⟩ := exists_digits_append_eq_cons n rest
  obtain ⟨numeral, hread, hint⟩ := Numeral.read?_digits n hrest
  rw [htext] at hread
  have hsimple : Lexeme.readSimple c tail = (.simple (.int n), rest) := by
    rw [Lexeme.readSimple, hword]
    simp only [hread, numeralValue, hint]
  obtain ⟨hblank, hlexeme⟩ := read_eq_readSimple hc tail
  exact ⟨c, tail, htext, hblank, hlexeme.trans hsimple⟩

end Json

end TokenStream
