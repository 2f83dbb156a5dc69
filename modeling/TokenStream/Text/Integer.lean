/-!
# Integers in base ten

An integer is written with its decimal digits and a minus sign in front if it is negative.

## Main definitions

* `Integer.digits` — the written form of an integer.
* `Integer.text` — the same as a string.
-/

namespace TokenStream.Integer

/-- The decimal form of an integer. -/
def digits : Int → List Char
  | .ofNat n => Nat.toDigits 10 n
  | .negSucc n => '-' :: Nat.toDigits 10 (n + 1)

/-- The decimal form of an integer, as a string. -/
def text (n : Int) : String := String.ofList (digits n)

end TokenStream.Integer
