/-!
# The shortest decimal of a binary number

A number with a binary point is written with the fewest decimal digits that read back as the same
number. Every real in an interval around the number reads back as it; the ends of the interval
belong to it when the significand is even. The decimal grids are searched from the coarsest one
for a point of the interval, and of two points of one grid the nearer is taken, on a tie the
even one. All arithmetic is exact.

## Main definitions

* `Binary`: a positive number as a significand and a power of two.
* `Value`: a number as a significand and a power of ten.
* `shortest`: the shortest decimal that reads back.
-/

namespace ScriptChart.Decimal

/-- The positive number `significand * 2 ^ exponent`. When `narrow` holds, the number below it is
only half as far away as the number above it. -/
structure Binary where
  significand : Nat
  exponent : Int
  narrow : Bool
deriving DecidableEq, Repr

/-- The number `significand * 10 ^ exponent`. -/
structure Value where
  significand : Nat
  exponent : Int
deriving DecidableEq, Repr

namespace Binary

/-- The end of the interval below the number, in quarters of the last binary place. -/
def below (x : Binary) : Nat := 4 * x.significand - if x.narrow then 1 else 2

/-- The end of the interval above the number, in quarters of the last binary place. -/
def above (x : Binary) : Nat := 4 * x.significand + 2

/-- The step of a decimal grid over a quarter of the last binary place, as a fraction. -/
def gridStep (x : Binary) (place : Int) : Nat × Nat :=
  (Nat.pow 10 place.toNat * Nat.pow 2 (2 - x.exponent).toNat,
    Nat.pow 10 (-place).toNat * Nat.pow 2 (x.exponent - 2).toNat)

/-- Whether a point of a decimal grid reads back as the number. -/
def readsBack (x : Binary) (place : Int) (point : Nat) : Bool :=
  let (step, unit) := x.gridStep place
  if x.significand % 2 = 0 then
    x.below * unit ≤ point * step && point * step ≤ x.above * unit
  else
    x.below * unit < point * step && point * step < x.above * unit

/-- The last point of a decimal grid that is not above the number. -/
def floorOn (x : Binary) (place : Int) : Nat :=
  let (step, unit) := x.gridStep place
  4 * x.significand * unit / step

/-- Of a point of a grid and its successor, the one nearer to the number, on a tie the even one. -/
def nearer (x : Binary) (place : Int) (point : Nat) : Nat :=
  let (step, unit) := x.gridStep place
  -- twice the number and twice the middle between the points, in one unit
  let exact := 8 * x.significand * unit
  let middle := (2 * point + 1) * step
  if exact < middle then point
  else if middle < exact then point + 1
  else if point % 2 = 0 then point
  else point + 1

/-- The point of a decimal grid that reads back and is nearest to the number. -/
def pointOn? (x : Binary) (place : Int) : Option Nat :=
  let low := x.floorOn place
  match x.readsBack place low, x.readsBack place (low + 1) with
  | true, true => some (x.nearer place low)
  | true, false => some low
  | false, true => some (low + 1)
  | false, false => none

/-- A decimal place above the leading digit of the number. -/
def leadingPlace (x : Binary) : Int :=
  ((x.significand.log2 + x.exponent) * 30103).fdiv 100000 + 2

/-- Searches a number of grids, each ten times finer than the one before. -/
def search (x : Binary) (place : Int) : Nat → Value
  | 0 => ⟨x.floorOn place, place⟩
  | grids + 1 =>
    match x.pointOn? place with
    | some point => ⟨point, place⟩
    | none => search x (place - 1) grids

/-- The shortest decimal that reads back as the number. -/
def shortest (x : Binary) : Value := x.search x.leadingPlace 20

end Binary

end ScriptChart.Decimal
