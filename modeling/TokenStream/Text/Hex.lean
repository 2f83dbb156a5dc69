/-!
# Hexadecimal digits

Code points in escapes are written to base sixteen with a fixed number of lower-case digits,
and read in either case.

## Main definitions

* `Hex.digits` — a number in a given number of digits.
* `Hex.digit?` — the value of one digit.
* `Hex.value4?` — the value of four digits.
-/

namespace TokenStream.Hex

/-- The lower-case digit of a value below sixteen. -/
def digit (value : Nat) : Char := (Nat.toDigits 16 value).headD '0'

/-- The lowest `width` digits of a number, the highest of them first. -/
def digits : (width : Nat) → Nat → List Char
  | 0, _ => []
  | width + 1, n => digits width (n / 16) ++ [digit (n % 16)]

/-- The value of a digit, in either case. -/
def digit? (c : Char) : Option Nat :=
  if '0' ≤ c ∧ c ≤ '9' then some (c.toNat - '0'.toNat)
  else if 'a' ≤ c ∧ c ≤ 'f' then some (c.toNat - 'a'.toNat + 10)
  else if 'A' ≤ c ∧ c ≤ 'F' then some (c.toNat - 'A'.toNat + 10)
  else none

/-- The number that four digits write, if all four are digits. -/
def value4? (c₃ c₂ c₁ c₀ : Char) : Option Nat := do
  let d₃ ← digit? c₃
  let d₂ ← digit? c₂
  let d₁ ← digit? c₁
  let d₀ ← digit? c₀
  return ((d₃ * 16 + d₂) * 16 + d₁) * 16 + d₀

@[simp] theorem length_digits (width n : Nat) : (digits width n).length = width := by
  induction width generalizing n with
  | zero => rfl
  | succ width ih => simp [digits, ih]

end TokenStream.Hex
