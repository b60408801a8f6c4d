import ScriptChart.Archive.Huffman

/-!
# Compressed data

Compressed data is a sequence of bits in blocks. A block holds bytes as they are, or symbols of a
prefix code that stand for bytes and for copies of what was put out before. The last block is
marked; what follows it is not read. Data that breaks the format, or that ends before its last
block has ended, has no result.

A copy looks back into a window that holds zeros at first, so a copy from before the first byte
finds zeros.

## Main definitions

* `Decoder`: reading bits and putting out bytes.
* `inflate?`: the bytes of compressed data.
-/

namespace ScriptChart.Archive

/-- The bits still to be read and the bytes put out so far. -/
structure Inflation where
  bits : List Bool
  output : Array UInt8

/-- Reading bits and putting out bytes, as long as the data keeps to the format. -/
abbrev Decoder := StateT Inflation Option

/-- The bits of a byte, the low one first. -/
def bitsOfByte (b : UInt8) : List Bool := (List.range 8).map fun place => b.toNat.testBit place

/-- The byte that was put out some distance before, or a zero if that is before the first byte. -/
def pastByte (output : Array UInt8) (distance : Nat) : UInt8 :=
  if distance ≤ output.size then output.getD (output.size - distance) 0 else 0

namespace Decoder

/-- The next bit. -/
def bit : Decoder Bool := do
  match (← get).bits with
  | [] => failure
  | first :: rest =>
    modify fun state => { state with bits := rest }
    return first

/-- A number of some bits, the low one first. -/
def number : Nat → Decoder Nat
  | 0 => return 0
  | count + 1 => do
    let low ← bit
    let high ← number count
    return 2 * high + low.toNat

/-- The symbol whose word comes next. -/
def symbol : CodeTree → Decoder Nat
  | .empty => failure
  | .symbol value => return value
  | .branch zero one => do
    match ← bit with
    | false => symbol zero
    | true => symbol one

/-- Puts out a byte. -/
def put (b : UInt8) : Decoder Unit :=
  modify fun state => { state with output := state.output.push b }

/-- Puts out the byte that was put out some distance before. -/
def putAgain (distance : Nat) : Decoder Unit :=
  modify fun state => { state with output := state.output.push (pastByte state.output distance) }

/-- Drops the bits before the next whole byte. A byte has eight bits, and the data ends with one. -/
def skipToByte : Decoder Unit :=
  modify fun state => { state with bits := state.bits.drop (state.bits.length % 8) }

/-- Runs a decoder a number of times. -/
def times (action : Decoder Unit) : Nat → Decoder Unit
  | 0 => return
  | count + 1 => do
    action
    times action count

end Decoder

/-- The length from which a symbol counts and the number of bits that are added to it. -/
def lengthCodes : List (Nat × Nat) :=
  [(3, 0), (4, 0), (5, 0), (6, 0), (7, 0), (8, 0), (9, 0), (10, 0), (11, 1), (13, 1), (15, 1),
   (17, 1), (19, 2), (23, 2), (27, 2), (31, 2), (35, 3), (43, 3), (51, 3), (59, 3), (67, 4),
   (83, 4), (99, 4), (115, 4), (131, 5), (163, 5), (195, 5), (227, 5), (258, 0)]

/-- The distance from which a symbol counts and the number of bits that are added to it. -/
def distanceCodes : List (Nat × Nat) :=
  [(1, 0), (2, 0), (3, 0), (4, 0), (5, 1), (7, 1), (9, 2), (13, 2), (17, 3), (25, 3), (33, 4),
   (49, 4), (65, 5), (97, 5), (129, 6), (193, 6), (257, 7), (385, 7), (513, 8), (769, 8),
   (1025, 9), (1537, 9), (2049, 10), (3073, 10), (4097, 11), (6145, 11), (8193, 12), (12289, 12),
   (16385, 13), (24577, 13)]

namespace Decoder

/-- A length or a distance: where its symbol begins, and the bits that are added. -/
def quantity (codes : List (Nat × Nat)) (symbol : Nat) : Decoder Nat :=
  match codes[symbol]? with
  | some (start, extra) => do return start + (← number extra)
  | none => failure

/-- The symbol that ends a block. -/
def endOfBlock : Nat := 256

/-- Copies what was put out before, once the symbol of the length is known. -/
def copy (distances : CodeTree) (lengthSymbol : Nat) : Decoder Unit := do
  let length ← quantity lengthCodes lengthSymbol
  let distance ← quantity distanceCodes (← symbol distances)
  -- a copy may run into what it puts out, so it is made byte by byte
  times (putAgain distance) length

/-- The symbols of a block up to its end. Every symbol takes at least one bit. -/
def symbols (literals distances : CodeTree) : Nat → Decoder Unit
  | 0 => failure
  | bits + 1 => do
    let next ← symbol literals
    if next = endOfBlock then return
    else
      if next < endOfBlock then put (UInt8.ofNat next)
      else copy distances (next - endOfBlock - 1)
      symbols literals distances bits

/-- The symbols of a block up to its end, as many as the bits allow. -/
def symbolBlock (literals distances : CodeTree) : Decoder Unit := do
  symbols literals distances (← get).bits.length

/-- A block of bytes as they are: their number, its complement, and the bytes. -/
def storedBlock : Decoder Unit := do
  skipToByte
  let length ← number 16
  let complement ← number 16
  guard (length + complement = 0xFFFF)
  times (do put (UInt8.ofNat (← number 8))) length

/-- The lengths of the fixed code. -/
def fixedLengths : List Nat :=
  List.replicate 144 8 ++ List.replicate 112 9 ++ List.replicate 24 7 ++ List.replicate 8 8

/-- A block in the fixed code. -/
def fixedBlock : Decoder Unit :=
  symbolBlock (.ofLengths fixedLengths) (.ofLengths (List.replicate 32 5))

/-- The symbols of the code for lengths in the order in which their own lengths are written. -/
def lengthOrder : List Nat := [16, 17, 18, 0, 8, 7, 9, 6, 10, 5, 11, 4, 12, 3, 13, 2, 14, 1, 15]

/-- A number of lengths that are written in the code for lengths, the last first. A symbol is a
length, or repeats the length before, or repeats zero. -/
def lengths (code : CodeTree) (total : Nat) : Nat → List Nat → Decoder (List Nat)
  | 0, done => return done
  | steps + 1, done => do
    if total ≤ done.length then return done
    else
      let next ← symbol code
      if next < 16 then lengths code total steps (next :: done)
      else if next = 16 then
        match done with
        | [] => failure
        | before :: _ =>
          let count := 3 + (← number 2)
          lengths code total steps (List.replicate count before ++ done)
      else if next = 17 then
        let count := 3 + (← number 3)
        lengths code total steps (List.replicate count 0 ++ done)
      else
        let count := 11 + (← number 7)
        lengths code total steps (List.replicate count 0 ++ done)

/-- The code of given lengths, if such a code is accepted. -/
def codeOf (lengths : List Nat) : Decoder CodeTree := do
  guard (isUsable lengths)
  return .ofLengths lengths

/-- The lengths of the code for lengths, three bits each. -/
def lengthsOfLengths : List Nat → Decoder (List (Nat × Nat))
  | [] => return []
  | symbol :: rest => do
    let length ← number 3
    return (symbol, length) :: (← lengthsOfLengths rest)

/-- A block in a code of its own. -/
def dynamicBlock : Decoder Unit := do
  -- the counts are written without their least values
  let literalCount := 257 + (← number 5)
  let distanceCount := 1 + (← number 5)
  let lengthCount := 4 + (← number 4)
  guard (literalCount ≤ 286 ∧ distanceCount ≤ 30)
  let written ← lengthsOfLengths (lengthOrder.take lengthCount)
  let ofLengths := (List.range 19).map fun symbol => (written.lookup symbol).getD 0
  guard (isComplete ofLengths)
  let total := literalCount + distanceCount
  let read := (← lengths (.ofLengths ofLengths) total total []).reverse
  guard (read.length = total)
  -- a repetition may run from the one code into the other, but not past the second
  let distances ← codeOf (read.drop literalCount)
  let literals ← codeOf (read.take literalCount)
  symbolBlock literals distances

/-- A block, without the bit that tells whether it is the last one. -/
def block : Decoder Unit := do
  match ← number 2 with
  | 0 => storedBlock
  | 1 => fixedBlock
  | 2 => dynamicBlock
  | _ => failure

/-- The blocks up to the last one. Every block takes at least one bit. -/
def blocks : Nat → Decoder Unit
  | 0 => failure
  | bits + 1 => do
    let last ← bit
    block
    if last then return else blocks bits

end Decoder

/-- The bytes of compressed data. -/
def inflate? (compressed : List UInt8) : Option (List UInt8) := do
  let bits := compressed.flatMap bitsOfByte
  -- every block takes a bit, so there are fewer blocks than bits
  let (_, state) ← (Decoder.blocks (bits.length + 1)).run ⟨bits, #[]⟩
  return state.output.toList

end ScriptChart.Archive
