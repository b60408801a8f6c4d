/-!
# The MD5 digest

The digest of a sequence of bytes: the bytes are padded to whole blocks of sixteen words, and
each block is mixed into a state of four words.

## Main definitions

* `Md5.State`: the four words.
* `Md5.digest`: the sixteen bytes of the digest.
* `hex`: bytes as lower-case hexadecimal digits.
-/

namespace ScriptChart.Digest

/-- The digits of base sixteen. -/
def hexDigit (value : Nat) : Char :=
  if value < 10 then Char.ofNat (48 + value) else Char.ofNat (87 + value)

/-- Two digits for each byte, the high one first. -/
def hex (bytes : List UInt8) : List Char :=
  bytes.flatMap fun b => [hexDigit (b.toNat / 16), hexDigit (b.toNat % 16)]

namespace Md5

/-- The state that the blocks are mixed into. -/
structure State where
  a : UInt32
  b : UInt32
  c : UInt32
  d : UInt32
deriving DecidableEq, Repr

/-- The state before the first block. -/
def State.start : State := ⟨0x67452301, 0xefcdab89, 0x98badcfe, 0x10325476⟩

/-- Word by word addition. -/
def State.add (s t : State) : State := ⟨s.a + t.a, s.b + t.b, s.c + t.c, s.d + t.d⟩

/-- How far each of the sixty-four steps rotates. -/
def rotations : List UInt32 :=
  let row (w x y z : UInt32) : List UInt32 := [w, x, y, z, w, x, y, z, w, x, y, z, w, x, y, z]
  row 7 12 17 22 ++ row 5 9 14 20 ++ row 4 11 16 23 ++ row 6 10 15 21

/-- The constants of the steps: the first thirty-two binary places of the sines of 1, 2, ... -/
def sines : List UInt32 :=
  [0xd76aa478, 0xe8c7b756, 0x242070db, 0xc1bdceee, 0xf57c0faf, 0x4787c62a, 0xa8304613, 0xfd469501,
   0x698098d8, 0x8b44f7af, 0xffff5bb1, 0x895cd7be, 0x6b901122, 0xfd987193, 0xa679438e, 0x49b40821,
   0xf61e2562, 0xc040b340, 0x265e5a51, 0xe9b6c7aa, 0xd62f105d, 0x02441453, 0xd8a1e681, 0xe7d3fbc8,
   0x21e1cde6, 0xc33707d6, 0xf4d50d87, 0x455a14ed, 0xa9e3e905, 0xfcefa3f8, 0x676f02d9, 0x8d2a4c8a,
   0xfffa3942, 0x8771f681, 0x6d9d6122, 0xfde5380c, 0xa4beea44, 0x4bdecfa9, 0xf6bb4b60, 0xbebfbc70,
   0x289b7ec6, 0xeaa127fa, 0xd4ef3085, 0x04881d05, 0xd9d4d039, 0xe6db99e5, 0x1fa27cf8, 0xc4ac5665,
   0xf4292244, 0x432aff97, 0xab9423a7, 0xfc93a039, 0x655b59c3, 0x8f0ccc92, 0xffeff47d, 0x85845dd1,
   0x6fa87e4f, 0xfe2ce6e0, 0xa3014314, 0x4e0811a1, 0xf7537e82, 0xbd3af235, 0x2ad7d2bb, 0xeb86d391]

/-- The function of the state and the place of the word that a step uses. -/
def mix (step : Nat) (s : State) : UInt32 × Nat :=
  if step < 16 then ((s.b &&& s.c) ||| (~~~s.b &&& s.d), step)
  else if step < 32 then ((s.d &&& s.b) ||| (~~~s.d &&& s.c), (5 * step + 1) % 16)
  else if step < 48 then (s.b ^^^ s.c ^^^ s.d, (3 * step + 5) % 16)
  else (s.c ^^^ (s.b ||| ~~~s.d), 7 * step % 16)

/-- Rotation to the left. -/
def rotate (word amount : UInt32) : UInt32 := (word <<< amount) ||| (word >>> (32 - amount))

/-- The step with a given number, rotation and constant. -/
def takeStep (block : List UInt32) (s : State) (step : Nat × UInt32 × UInt32) : State :=
  let (value, place) := mix step.1 s
  let sum := value + s.a + step.2.2 + block.getD place 0
  ⟨s.d, s.b + rotate sum step.2.1, s.b, s.c⟩

/-- The sixty-four steps with their rotations and constants. -/
def steps : List (Nat × UInt32 × UInt32) := (List.range 64).zip (rotations.zip sines)

/-- Mixes one block into the state. -/
def compress (s : State) (block : List UInt32) : State :=
  s.add (steps.foldl (takeStep block) s)

/-- Mixes a number of blocks of sixteen words into the state. -/
def compressAll : Nat → State → List UInt32 → State
  | 0, s, _ => s
  | count + 1, s, words => compressAll count (compress s (words.take 16)) (words.drop 16)

/-- The bytes of a number, the low one first. -/
def littleEndian (count value : Nat) : List UInt8 :=
  (List.range count).map fun place => UInt8.ofNat (value >>> (8 * place))

/-- The bytes with their padding: a mark, zeros up to a whole block less eight bytes, and the
length in bits. -/
def pad (bytes : List UInt8) : List UInt8 :=
  -- one byte for the mark and eight for the length complete a block of sixty-four
  let zeros := (119 - bytes.length % 64) % 64
  bytes ++ 0x80 :: List.replicate zeros 0 ++ littleEndian 8 (8 * bytes.length)

/-- The words that four bytes each make up, the low byte first. -/
def toWords : List UInt8 → List UInt32
  | p :: q :: r :: s :: rest =>
    (p.toUInt32 ||| q.toUInt32 <<< 8 ||| r.toUInt32 <<< 16 ||| s.toUInt32 <<< 24) :: toWords rest
  | _ => []

/-- The sixteen bytes of the digest. -/
def digest (bytes : List UInt8) : List UInt8 :=
  let words := toWords (pad bytes)
  let s := compressAll (words.length / 16) .start words
  [s.a, s.b, s.c, s.d].flatMap fun word => littleEndian 4 word.toNat

end Md5

end ScriptChart.Digest
