/-!
# Mending UTF-8

Bytes that should be a text in UTF-8 may fail to be one. Each part that begins as a character does
and breaks off, and each byte that begins none, is replaced by the character U+FFFD.

## Main definitions

* `following?`: what follows the first byte of a character.
* `mend`: the bytes with their ill-formed parts replaced.
-/

namespace ScriptChart.Text

/-- The character U+FFFD in UTF-8. -/
def replacementBytes : List UInt8 := [0xEF, 0xBF, 0xBD]

/-- How many bytes follow the first byte of a character, and the least and the greatest value that
the first of them can have. No other value gives a character that is written in as few bytes. -/
def following? (b : UInt8) : Option (Nat × UInt8 × UInt8) :=
  if b < 0x80 then some (0, 0x80, 0xBF)
  else if b < 0xC2 then none
  else if b < 0xE0 then some (1, 0x80, 0xBF)
  else if b = 0xE0 then some (2, 0xA0, 0xBF)
  -- the numbers from U+D800 to U+DFFF are not characters
  else if b = 0xED then some (2, 0x80, 0x9F)
  else if b < 0xF0 then some (2, 0x80, 0xBF)
  else if b = 0xF0 then some (3, 0x90, 0xBF)
  else if b < 0xF4 then some (3, 0x80, 0xBF)
  -- nor are those above U+10FFFF
  else if b = 0xF4 then some (3, 0x80, 0x8F)
  else none

/-- How many bytes continue a character, of a given number at most. All but the first can have any
value from 0x80 to 0xBF. -/
def continuing : Nat → UInt8 → UInt8 → List UInt8 → Nat
  | count + 1, low, high, b :: rest =>
    if low ≤ b ∧ b ≤ high then continuing count 0x80 0xBF rest + 1 else 0
  | _, _, _, _ => 0

/-- The bytes with their ill-formed parts replaced. -/
def mend : List UInt8 → List UInt8
  | [] => []
  | b :: rest =>
    match following? b with
    | none => replacementBytes ++ mend rest
    | some (count, low, high) =>
      let present := continuing count low high rest
      let part := if present = count then b :: rest.take present else replacementBytes
      part ++ mend (rest.drop present)
termination_by bytes => bytes.length

end ScriptChart.Text
