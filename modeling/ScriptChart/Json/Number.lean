/-!
# JSON numbers

A number as it is written, and the number it denotes. Whole numbers of up to sixty-four bits stay
whole. All others are floating-point numbers, reckoned in a fixed way: the leading digits are
gathered as long as they fit into sixty-four bits, the other digits before the point raise a power
of ten, the other digits after it are dropped, and the gathered digits are multiplied or divided
by the power of ten once. A result beyond the floating-point range is no number.

## Main definitions

* `Numeral`: a number as it is written, by its digits.
* `Number`, `Numeral.value?`: the number that a numeral denotes.
-/

namespace ScriptChart.Json

/-- A number as it is written. The fraction and the exponent are empty when there is none. -/
structure Numeral where
  negative : Bool
  whole : List Nat
  fraction : List Nat
  exponentNegative : Bool
  exponent : List Nat
deriving DecidableEq, Repr, Inhabited

/-- A number as it is read. -/
inductive Number where
  | int (value : Int)
  | float (value : Float)
deriving Repr, Inhabited

/-- The least number that does not fit into sixty-four bits. -/
def beyondWord : Nat := 0x10000000000000000

/-- Adds digits to a number as long as it fits into sixty-four bits, and gives the digits that are
left over. -/
def gather (start : Nat) : List Nat → Nat × List Nat
  | [] => (start, [])
  | digit :: rest =>
    if start * 10 + digit < beyondWord then gather (start * 10 + digit) rest
    else (start, digit :: rest)

/-- The number that digits denote. -/
def natOfDigits (digits : List Nat) : Nat :=
  digits.foldl (fun value digit => value * 10 + digit) 0

/-- A power of ten as a floating-point number. -/
def tenTo (power : Nat) : Float := Float.ofScientific 1 false power

/-- The power of ten that a floating-point number is multiplied or divided by at once. -/
def largestPower : Nat := 308

/-- Divides by the largest power of ten a number of times, as long as anything is left. -/
def divideDown (x : Float) : Nat → Float
  | 0 => x
  | times + 1 => if x == 0 then x else divideDown (x / tenTo largestPower) times

/-- A number times a power of ten, unless the result is out of range. -/
def scale? (x : Float) (power : Int) : Option Float :=
  if 0 ≤ power then
    if power ≤ largestPower then
      let product := x * tenTo power.toNat
      if product.isInf then none else some product
    else if x == 0 then some x
    else none
  else
    -- the powers of ten beyond the largest one are divided by in turn
    let divisions := (power.natAbs - 1) / largestPower
    some (divideDown x divisions / tenTo (power.natAbs - largestPower * divisions))

/-- The largest exponent that is reckoned with; beyond it only the sign of the exponent counts. -/
def largestExponent : Nat := 0x7FFFFFFF

namespace Numeral

/-- Whether only a sign and digits are written. -/
def isWhole (n : Numeral) : Bool := n.fraction.isEmpty && n.exponent.isEmpty

/-- The sign of the numeral on a floating-point number. -/
def signed (n : Numeral) (x : Float) : Float := if n.negative then -x else x

/-- The floating-point number that a numeral denotes, without its sign. -/
def magnitude? (n : Numeral) : Option Float :=
  let (integral, beyond) := gather 0 n.whole
  let (gathered, dropped) := gather integral n.fraction
  -- each digit left over before the point raises the power, each one taken after it lowers it
  let start : Int := beyond.length - (n.fraction.length - dropped.length : Nat)
  let exponent := natOfDigits n.exponent
  let x := (UInt64.ofNat gathered).toFloat
  if exponent ≤ largestExponent then
    scale? x (if n.exponentNegative then start - exponent else start + exponent)
  else if gathered = 0 ∨ n.exponentNegative then some 0
  else none

/-- The whole number that a numeral denotes, unless it needs a floating-point number. Minus zero
and numbers below the least of sixty-four bits need one. -/
def int? (n : Numeral) : Option Int :=
  match n.isWhole, gather 0 n.whole with
  | true, (value, []) =>
    if ¬ n.negative then some value
    else if 0 < value ∧ value ≤ 0x8000000000000000 then some (-value)
    else none
  | _, _ => none

/-- The number that a numeral denotes, unless it is out of range. -/
def value? (n : Numeral) : Option Number :=
  match n.int? with
  | some value => some (.int value)
  | none => n.magnitude?.map fun x => .float (n.signed x)

end Numeral

end ScriptChart.Json
