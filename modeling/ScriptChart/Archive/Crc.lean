/-!
# The checksum of an entry

The cyclic redundancy check of thirty-two bits that an archive stores with every entry: the
remainder of the bytes, taken as a polynomial with the low bit of each byte first.

## Main definitions

* `crc32`: the checksum of a sequence of bytes.
-/

namespace ScriptChart.Archive

/-- The divisor, its low bit first. -/
def crcPolynomial : UInt32 := 0xEDB88320

/-- Divides by one more bit. -/
def crcBit (remainder : UInt32) : UInt32 :=
  if remainder &&& 1 = 1 then (remainder >>> 1) ^^^ crcPolynomial else remainder >>> 1

/-- Divides by one more byte. -/
def crcByte (remainder : UInt32) (b : UInt8) : UInt32 :=
  crcBit (crcBit (crcBit (crcBit (crcBit (crcBit (crcBit (crcBit (remainder ^^^ b.toUInt32))))))))

/-- The checksum of a sequence of bytes. -/
def crc32 (bytes : List UInt8) : UInt32 := ~~~(bytes.foldl crcByte 0xFFFFFFFF)

end ScriptChart.Archive
