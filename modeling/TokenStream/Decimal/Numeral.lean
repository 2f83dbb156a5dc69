/-!
# Numerals

A numeral is a number as it is written: a sign, a whole part without superfluous zeros, and
possibly a fraction and an exponent, all in ASCII digits.  Without a fraction and an exponent it
stands for an integer, otherwise for the float nearest to it.

## Main definitions

* `Numeral` — the parts of a written number.
* `Numeral.read?` — the longest numeral at the head of a text, and what follows it.
* `Numeral.toInt?`, `Numeral.toFloat` — the number it stands for.

## Main results

* `Numeral.length_of_read?` — a numeral takes at least one character.
-/

namespace TokenStream

/-- The parts of a number as it is written. -/
structure Numeral where
  /-- Whether a minus sign stands in front. -/
  negative : Bool
  /-- The digits before the point. -/
  whole : List Char
  /-- The digits after the point; none if there is no point. -/
  fraction : List Char
  /-- The exponent, if one is written. -/
  exponent : Option Int
deriving DecidableEq, Repr, Inhabited

namespace Numeral

/-- The number that decimal digits write. -/
def value (digits : List Char) : Nat := Nat.ofDigitChars 10 digits 0

/-- A run of digits, as long as possible, and what follows it. -/
def readDigits (text : List Char) : List Char × List Char :=
  (text.takeWhile Char.isDigit, text.dropWhile Char.isDigit)

/-- A minus sign, if there is one, and what follows it. -/
def readMinus : List Char → Bool × List Char
  | '-' :: rest => (true, rest)
  | text => (false, text)

/-- A sign, if there is one, and what follows it. -/
def readSign : List Char → Bool × List Char
  | '+' :: rest => (false, rest)
  | text => readMinus text

/-- The digits before the point: a zero stands alone. -/
def readWhole : List Char → List Char × List Char
  | '0' :: rest => (['0'], rest)
  | text => readDigits text

/-- A point with digits after it.  A point without digits is left alone. -/
def readFraction : List Char → List Char × List Char
  | '.' :: rest =>
    match readDigits rest with
    | ([], _) => ([], '.' :: rest)
    | found => found
  | text => ([], text)

/-- An exponent.  An exponent mark without digits is left alone. -/
def readExponent : List Char → Option Int × List Char
  | [] => (none, [])
  | c :: rest =>
    if c = 'e' ∨ c = 'E' then
      let (negative, digits) := readSign rest
      match readDigits digits with
      | ([], _) => (none, c :: rest)
      | (found, after) =>
        (some (if negative then -(value found : Int) else value found), after)
    else (none, c :: rest)

/-- The longest numeral at the head of a text, and what follows it. -/
def read? (text : List Char) : Option (Numeral × List Char) :=
  let (negative, text) := readMinus text
  match readWhole text with
  | ([], _) => none
  | (whole, text) =>
    let (fraction, text) := readFraction text
    let (exponent, text) := readExponent text
    some (⟨negative, whole, fraction, exponent⟩, text)

/-- The integer that a numeral stands for, if it has neither a fraction nor an exponent. -/
def toInt? (numeral : Numeral) : Option Int :=
  if numeral.fraction.isEmpty && numeral.exponent.isNone then
    some (if numeral.negative then -(value numeral.whole : Int) else value numeral.whole)
  else none

/-- The float nearest to `digits * 10 ^ exponent`.  Far outside the range of floats the answer is
known without building the power: infinity above, zero below. -/
def nearestFloat (digits : Nat) (exponent : Int) : Float :=
  let top := (Nat.toDigits 10 digits).length + exponent
  if digits = 0 ∨ top < -330 then 0.0
  else if 310 < top then 1.0 / 0.0
  else Float.ofScientific digits (exponent < 0) exponent.natAbs

/-- The float nearest to what a numeral stands for. -/
def toFloat (numeral : Numeral) : Float :=
  let exponent := numeral.exponent.getD 0 - numeral.fraction.length
  let magnitude := nearestFloat (value (numeral.whole ++ numeral.fraction)) exponent
  if numeral.negative then -magnitude else magnitude

/-! ### What is left after reading is shorter -/

theorem length_readDigits_le (text : List Char) :
    (readDigits text).2.length ≤ text.length :=
  (List.dropWhile_suffix _).length_le

theorem length_readMinus_le (text : List Char) : (readMinus text).2.length ≤ text.length := by
  unfold readMinus
  split <;> simp

theorem length_readSign_le (text : List Char) : (readSign text).2.length ≤ text.length := by
  unfold readSign
  split
  · simp
  · exact length_readMinus_le _

theorem length_readFraction_le (text : List Char) :
    (readFraction text).2.length ≤ text.length := by
  unfold readFraction
  split
  · next rest =>
    split
    · simp
    · have := length_readDigits_le rest
      simp only [List.length_cons]
      omega
  · simp

theorem length_readExponent_le (text : List Char) :
    (readExponent text).2.length ≤ text.length := by
  cases text with
  | nil => simp [readExponent]
  | cons c rest =>
    simp only [readExponent]
    split
    · split
      · simp
      · next found after _ h =>
        have hdigits := length_readDigits_le (readSign rest).2
        have hsign := length_readSign_le rest
        rw [h] at hdigits
        simp only [List.length_cons] at hdigits ⊢
        omega
    · simp

theorem length_readWhole_add (text : List Char) :
    (readWhole text).2.length + (readWhole text).1.length = text.length := by
  unfold readWhole
  split
  · simp
  · rw [readDigits, Nat.add_comm, ← List.length_append, List.takeWhile_append_dropWhile]

/-- A numeral takes at least one character. -/
theorem length_of_read? {text rest : List Char} {numeral : Numeral}
    (h : read? text = some (numeral, rest)) : rest.length < text.length := by
  unfold read? at h
  have hminus := length_readMinus_le text
  generalize readMinus text = signed at h hminus
  obtain ⟨negative, text₁⟩ := signed
  simp only at h hminus
  have hwhole := length_readWhole_add text₁
  split at h
  · contradiction
  · next whole text₂ hne heq =>
    rw [heq] at hwhole
    have hfraction := length_readFraction_le text₂
    have hexponent := length_readExponent_le (readFraction text₂).2
    have hpos := List.length_pos_iff.mpr hne
    cases h
    simp only at hwhole
    omega

end Numeral

end TokenStream
