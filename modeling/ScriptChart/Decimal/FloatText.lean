import ScriptChart.Decimal.Shortest

/-!
# The text of a floating-point number

A floating-point number is written with its shortest digits. Numbers of moderate size are written
with a decimal point and at least one digit on either side of it, all others with one digit
before the point and a signed power of ten.

## Main definitions

* `Layout`: between which powers of ten the point is written in its place.
* `floatText`: the text of a floating-point number.
-/

namespace ScriptChart.Decimal

/-- The powers of ten of the leading digit for which no exponent is written: from `lowest` up to
but not including `highest`. -/
structure Layout where
  lowest : Int
  highest : Int

/-- Numbers from 0.00001 to below 10 to the 16th are written without an exponent. -/
def Layout.standard : Layout := ⟨-5, 16⟩

/-- The decimal digits of a number. -/
def digitsOf (n : Nat) : List Char := Nat.toDigits 10 n

/-- Digits with the decimal point in its place: the last digit stands at the given power of ten. -/
def positional (digits : List Char) (place : Int) : List Char :=
  if 0 ≤ place then digits ++ List.replicate place.toNat '0' ++ ['.', '0']
  else
    let behind := (-place).toNat
    if behind < digits.length then
      digits.take (digits.length - behind) ++ '.' :: digits.drop (digits.length - behind)
    else '0' :: '.' :: List.replicate (behind - digits.length) '0' ++ digits

/-- Digits with one of them before the point and the power of ten of that digit written out. -/
def scientific (digits : List Char) (leading : Int) : List Char :=
  let mantissa :=
    match digits with
    | d :: e :: rest => d :: '.' :: e :: rest
    | short => short
  mantissa ++ 'e' :: (if leading < 0 then '-' else '+') :: digitsOf leading.natAbs

/-- The text of a positive decimal. -/
def Value.text (layout : Layout) (d : Value) : List Char :=
  let digits := digitsOf d.significand
  let leading := d.exponent + digits.length - 1
  if layout.lowest ≤ leading ∧ leading < layout.highest then positional digits d.exponent
  else scientific digits leading

/-- The bit in front of the fraction of a float, which is not stored. -/
def hiddenBit : Nat := 0x10000000000000

/-- The bit of the sign of a float. -/
def signBit : Nat := 0x8000000000000000

/-- The number that the bits of a positive finite float denote, unless it is zero. -/
def Binary.ofBits? (bits : Nat) : Option Binary :=
  let fraction : Nat := bits % hiddenBit
  let exponent : Nat := bits / hiddenBit % 0x800
  if exponent = 0 then
    if fraction = 0 then none else some ⟨fraction, -1074, false⟩
  else some ⟨hiddenBit + fraction, (exponent : Int) - 1075, fraction = 0 && 1 < exponent⟩

/-- The text of a finite floating-point number. -/
def floatText (x : Float) : List Char :=
  let bits := x.toBits.toNat
  let sign := if signBit ≤ bits then ['-'] else []
  match Binary.ofBits? (bits % signBit) with
  | none => sign ++ ['0', '.', '0']
  | some b => sign ++ b.shortest.text .standard

end ScriptChart.Decimal
