/-!
# Records of an archive

An archive is a row of records. A record begins with a signature, and a number in it takes a few
bytes, the low one first.

## Main definitions

* `littleEndian`, `fieldOf`: the numbers in a record.
* `recordAt?`: the record at a place.
* `placesWithin`: where the records of one kind may begin.
-/

namespace ScriptChart.Archive

/-- The number that bytes denote, the low one first. -/
def littleEndian : List UInt8 → Nat
  | [] => 0
  | b :: rest => b.toNat + 256 * littleEndian rest

/-- A number of bytes from a place in a record. -/
def fieldOf (bytes : List UInt8) (place count : Nat) : Nat :=
  littleEndian ((bytes.drop place).take count)

/-- The largest number of two bytes, which stands for a number in a wider record. -/
def limit16 : Nat := 0xFFFF

/-- The largest number of four bytes, which stands for a number in a wider record. -/
def limit32 : Nat := 0xFFFFFFFF

/-- The signature of an entry's own header. -/
def entrySignature : List UInt8 := [0x50, 0x4B, 3, 4]

/-- The signature of an entry in the directory. -/
def listingSignature : List UInt8 := [0x50, 0x4B, 1, 2]

/-- The signature of the record behind the directory. -/
def endSignature : List UInt8 := [0x50, 0x4B, 5, 6]

/-- The signature of the wider record. -/
def wideEndSignature : List UInt8 := [0x50, 0x4B, 6, 6]

/-- The signature of the record that tells where the wider one is. -/
def locatorSignature : List UInt8 := [0x50, 0x4B, 6, 7]

/-- A record of a given size at a place, if it is whole and has the signature. -/
def recordAt? (bytes signature : List UInt8) (place size : Nat) : Option (List UInt8) :=
  let record := (bytes.drop place).take size
  if signature.isPrefixOf record && record.length == size then some record else none

/-- The places at which a signature stands, counted from `place`, in rising order. -/
def placesOf (signature : List UInt8) (place : Nat) : List UInt8 → List Nat
  | [] => []
  | b :: rest =>
    if signature.isPrefixOf (b :: rest) then place :: placesOf signature (place + 1) rest
    else placesOf signature (place + 1) rest

/-- The places from `low` and below `high` at which a signature stands. -/
def placesWithin (bytes signature : List UInt8) (low high : Nat) : List Nat :=
  placesOf signature low ((bytes.take high).drop low)

end ScriptChart.Archive
