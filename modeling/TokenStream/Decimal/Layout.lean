import TokenStream.Decimal.Shortest
import TokenStream.Text.Integer

/-!
# The written form of a float

A float is written with its shortest decimal.  Where the decimal point falls near the digits it
is set among them; further out the digits are written with one of them before the point, and an
exponent.

## Main definitions

* `FloatStyle` — the decisions that written forms differ in.
* `FloatStyle.display` — the form in messages.
* `FloatStyle.render` — a float in a given form.
-/

namespace TokenStream

/-- The decisions that the written forms of floats differ in. -/
structure FloatStyle where
  /-- The least exponent of the first digit with which the point is set among the digits. -/
  pointFrom : Int
  /-- The least exponent of the first digit that is too large for that. -/
  pointBelow : Int
  /-- The least number of digits of an exponent. -/
  exponentWidth : Nat
  /-- The form of what is not a number. -/
  nan : String
  /-- The form of infinity. -/
  infinity : String
deriving DecidableEq, Repr, Inhabited

namespace FloatStyle

/-- In messages the point is set among the digits from a ten-thousandth on and below ten to the
sixteenth, and an exponent has at least two digits. -/
def display : FloatStyle where
  pointFrom := -4
  pointBelow := 16
  exponentWidth := 2
  nan := "nan"
  infinity := "inf"

/-- The digits of a number without the zeros at their end. -/
def significantDigits (n : Nat) : List Char :=
  ((Nat.toDigits 10 n).reverse.dropWhile (· == '0')).reverse

/-- Digits with a point after the first `before` of them, filled up with zeros on either side so
that at least one digit stands on each side of the point. -/
def placePoint (digits : List Char) (before : Int) : List Char :=
  if before ≤ 0 then '0' :: '.' :: List.replicate (-before).toNat '0' ++ digits
  else if digits.length ≤ before.toNat then
    digits ++ List.replicate (before.toNat - digits.length) '0' ++ ['.', '0']
  else digits.take before.toNat ++ '.' :: digits.drop before.toNat

/-- An exponent with its sign, filled up with zeros to a width. -/
def renderExponent (width : Nat) (exponent : Int) : List Char :=
  let digits := Nat.toDigits 10 exponent.natAbs
  (if exponent < 0 then '-' else '+') :: List.replicate (width - digits.length) '0' ++ digits

/-- Digits of which the first has the given exponent. -/
def renderDigits (style : FloatStyle) (digits : List Char) (exponent : Int) : List Char :=
  if style.pointFrom ≤ exponent && exponent < style.pointBelow then
    placePoint digits (exponent + 1)
  else
    let fraction := digits.drop 1
    digits.take 1 ++ (if fraction.isEmpty then [] else '.' :: fraction) ++
      'e' :: renderExponent style.exponentWidth exponent

/-- A finite value without its sign. -/
def renderFinite (style : FloatStyle) (significand : Nat) (binaryExponent : Int) : List Char :=
  if significand = 0 then ['0', '.', '0']
  else
    let decimal := Decimal.shortest significand binaryExponent
    let exponent := decimal.exponent + (Nat.toDigits 10 decimal.digits).length - 1
    style.renderDigits (significantDigits decimal.digits) exponent

/-- A sign in front of what is negative. -/
def withSign (negative : Bool) (text : List Char) : List Char :=
  if negative then '-' :: text else text

/-- A float in its written form.  A zero keeps its sign. -/
def render (style : FloatStyle) (x : Float) : List Char :=
  match Binary64.ofFloat x with
  | .nan => style.nan.toList
  | .infinite negative => withSign negative style.infinity.toList
  | .finite negative significand exponent =>
    withSign negative (style.renderFinite significand exponent)

end FloatStyle

end TokenStream
