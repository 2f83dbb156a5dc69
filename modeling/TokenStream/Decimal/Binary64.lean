/-!
# Binary floating-point numbers

A 64-bit float is taken apart into its sign, an integer significand and a power of two, so that
all further work on it is exact arithmetic on integers.

## Main definitions

* `Binary64` — not a number, an infinity, or a finite value.
* `Binary64.ofFloat` — the parts of a float.
* `Binary64.isBelow` — exact comparison with a natural number.
* `Binary64.isZero` — whether the value is zero, of either sign.
-/

namespace TokenStream

/-- What a 64-bit float stands for. -/
inductive Binary64
  /-- Not a number. -/
  | nan
  /-- An infinity. -/
  | infinite (negative : Bool)
  /-- The number `significand * 2 ^ exponent`, or its negative. -/
  | finite (negative : Bool) (significand : Nat) (exponent : Int)
deriving DecidableEq, Repr, Inhabited

namespace Binary64

/-- The parts of a float. -/
def ofFloat (x : Float) : Binary64 :=
  let bits : Nat := x.toBits.toNat
  let negative := bits / Nat.pow 2 63 == 1
  let biased : Nat := bits / Nat.pow 2 52 % Nat.pow 2 11
  let fraction : Nat := bits % Nat.pow 2 52
  if biased = Nat.pow 2 11 - 1 then
    if fraction = 0 then infinite negative else nan
  else if biased = 0 then finite negative fraction (-1074)
  else finite negative (Nat.pow 2 52 + fraction) (biased - 1075)

/-- Whether the value is less than a natural number.  What is not a number is not less than
anything. -/
def isBelow (bound : Nat) : Binary64 → Bool
  | nan => false
  | infinite negative => negative
  | finite true significand _ => 0 < significand || 0 < bound
  | finite false significand exponent =>
    significand * Nat.pow 2 exponent.toNat < bound * Nat.pow 2 (-exponent).toNat

/-- Whether the value is zero. -/
def isZero : Binary64 → Bool
  | finite _ significand _ => significand == 0
  | _ => false

end Binary64

end TokenStream
