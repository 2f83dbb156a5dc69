import TokenStream.Decimal.Binary64

/-!
# The shortest decimal of a float

The real numbers that round to a finite float form an interval around it.  Its shortest decimal
is the decimal with the fewest digits in that interval; of several, the one nearest to the
float, and of two equally near, the one whose last digit is even.

The decimals with a given number of digits form a grid.  If one of its points lies in the
interval, so does one of the two around the float, so that it is enough to look at those two.

## Main definitions

* `Decimal` — a natural number times a power of ten.
* `Grid` — a decimal grid laid over the binary one, on a common scale.
* `Grid.nearest?` — the point of a grid that rounds to the float and is nearest to it.
* `Decimal.shortest` — the shortest decimal.
-/

namespace TokenStream

/-- The number `digits * 10 ^ exponent`. -/
structure Decimal where
  /-- The digits as one natural number. -/
  digits : Nat
  /-- The power of ten that they are multiplied with. -/
  exponent : Int
deriving DecidableEq, Repr, Inhabited

/-- A decimal grid and the binary grid of a float, both as multiples of one small number.  The
float is `4 * significand` quarters, and the numbers halfway to its neighbours are two quarters
away, or one if the neighbour below belongs to a finer binary grid. -/
structure Grid where
  /-- A quarter of the distance between binary neighbours. -/
  quarter : Nat
  /-- The distance between decimal neighbours. -/
  step : Nat
deriving DecidableEq, Repr, Inhabited

namespace Grid

/-- The grid of the multiples of `10 ^ decimalExponent`, over that of `2 ^ binaryExponent`. -/
def ofExponents (binaryExponent decimalExponent : Int) : Grid where
  quarter := Nat.pow 2 (binaryExponent - 2).toNat * Nat.pow 10 (-decimalExponent).toNat
  step := Nat.pow 2 (2 - binaryExponent).toNat * Nat.pow 10 decimalExponent.toNat

/-- Whether a point of the decimal grid rounds to the float.  The ends of the interval do exactly
if the significand is even. -/
def roundsTo (grid : Grid) (significand : Nat) (narrowBelow : Bool) (point : Nat) : Bool :=
  let low := (4 * significand - if narrowBelow then 1 else 2) * grid.quarter
  let high := (4 * significand + 2) * grid.quarter
  let place := point * grid.step
  if significand % 2 = 0 then low ≤ place && place ≤ high else low < place && place < high

/-- The last point of the decimal grid that is not above the float. -/
def pointBelow (grid : Grid) (significand : Nat) : Nat :=
  4 * significand * grid.quarter / grid.step

/-- The point of the decimal grid that rounds to the float and is nearest to it. -/
def nearest? (grid : Grid) (significand : Nat) (narrowBelow : Bool) : Option Nat :=
  let below := grid.pointBelow significand
  let above := below + 1
  match grid.roundsTo significand narrowBelow below,
      grid.roundsTo significand narrowBelow above with
  | false, false => none
  | true, false => some below
  | false, true => some above
  | true, true =>
    match compare (2 * (4 * significand * grid.quarter)) ((below + above) * grid.step) with
    | .lt => some below
    | .gt => some above
    | .eq => some (if below % 2 = 0 then below else above)

end Grid

namespace Decimal

/-- How many digits a positive float has before its point; zero or less for values below one
tenth and further down.  No positive float is below `10 ^ (-350)`. -/
def magnitude (significand : Nat) (binaryExponent : Int) : Int :=
  let scaled := (Grid.ofExponents binaryExponent (-350)).pointBelow significand
  (Nat.toDigits 10 scaled).length - 350

/-- The exact value of a float as a decimal. -/
def exact (significand : Nat) (binaryExponent : Int) : Decimal :=
  if 0 ≤ binaryExponent then ⟨significand * Nat.pow 2 binaryExponent.toNat, 0⟩
  else ⟨significand * Nat.pow 5 (-binaryExponent).toNat, binaryExponent⟩

/-- The shortest decimal that rounds to the float `significand * 2 ^ binaryExponent`.  Seventeen
digits are always enough; should a grid be missing all the same, the exact value takes its
place. -/
def shortest (significand : Nat) (binaryExponent : Int) : Decimal :=
  let narrowBelow := significand == Nat.pow 2 52 && -1074 < binaryExponent
  let top := magnitude significand binaryExponent
  let found := (List.range 17).findSome? fun (count : Nat) =>
    let exponent := top - (count + 1)
    ((Grid.ofExponents binaryExponent exponent).nearest? significand narrowBelow).map
      fun digits => (⟨digits, exponent⟩ : Decimal)
  found.getD (exact significand binaryExponent)

end Decimal

end TokenStream
