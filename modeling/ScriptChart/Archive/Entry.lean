import ScriptChart.Archive.Crc
import ScriptChart.Archive.Record
import ScriptChart.Text.CodePage
import ScriptChart.Text.Mend

/-!
# Entries

An entry as the directory of an archive lists it. Behind its name come further fields, each with a
kind and a length: wider numbers, other spellings of the name and of the comment, times, and how
the data is encrypted.

A field may be cut off by the end of its row. Then the row ends there, and what was read before
counts. A field that is whole but does not make sense spoils the entry.

## Main definitions

* `Entry`: an entry as the directory lists it.
* `FieldReader`: reading the further fields of an entry.
* `Entry.extend?`: an entry with its further fields.
-/

namespace ScriptChart.Archive

/-- An entry as the directory lists it. -/
structure Entry where
  name : List UInt8
  /-- The comment in UTF-8. -/
  comment : List UInt8
  encrypted : Bool
  /-- Whether a field says that the data is encrypted with AES. -/
  aes : Bool
  method : Nat
  checksum : Nat
  compressedSize : Nat
  uncompressedSize : Nat
  /-- Where the entry's own header is. -/
  header : Nat

/-- A comment in UTF-8. It is written in code page 437 unless the entry says that it is UTF-8. -/
def commentOf (isUtf8 : Bool) (bytes : List UInt8) : List UInt8 :=
  if isUtf8 then Text.mend bytes else (Text.ofCodePage bytes).toUTF8.toList

/-- Why the reading of fields ends early. -/
inductive FieldFault where
  /-- The row of fields ends within a field. -/
  | cut
  /-- A field does not make sense. -/
  | senseless
deriving DecidableEq, Repr

/-- The bytes of fields that are still to be read, and the entry so far. -/
structure FieldState where
  rest : List UInt8
  entry : Entry

/-- Reading fields. What was read stays when the reading ends early. -/
abbrev FieldReader := ExceptT FieldFault (StateM FieldState)

namespace FieldReader

/-- The next bytes. -/
def take (count : Nat) : FieldReader (List UInt8) := do
  let rest := (← get).rest
  if rest.length < count then throw .cut
  modify fun state => { state with rest := rest.drop count }
  return rest.take count

/-- The next number of some bytes. -/
def number (count : Nat) : FieldReader Nat := return littleEndian (← take count)

/-- Asks for what a field must fulfil. -/
def demand (condition : Prop) [Decidable condition] : FieldReader Unit :=
  if condition then return else throw .senseless

/-- The entry so far. -/
def entry : FieldReader Entry := return (← get).entry

/-- Changes the entry. -/
def change (update : Entry → Entry) : FieldReader Unit :=
  modify fun state => { state with entry := update state.entry }

/-- A wide number and the bytes that it took. It is there if all of them are, or if the short number
is filled up. -/
def widened (all : Bool) (short : Nat) : FieldReader (Nat × Nat) :=
  if all || short == limit32 then return (← number 8, 8) else return (short, 0)

/-- The wider numbers of an entry. -/
def widths (length : Nat) : FieldReader Unit := do
  let all := decide (24 ≤ length)
  let (size, first) ← widened all (← entry).uncompressedSize
  change fun entry => { entry with uncompressedSize := size }
  let (size, second) ← widened all (← entry).compressedSize
  change fun entry => { entry with compressedSize := size }
  let (place, third) ← widened all (← entry).header
  change fun entry => { entry with header := place }
  demand (first + second + third ≤ length)
  let _ ← take (length - (first + second + third))

/-- Another spelling of a text. It has a version, and a checksum by which it belongs to the first
spelling. -/
def spelling (length : Nat) (plain : List UInt8) : FieldReader (List UInt8) := do
  let _ ← take 1
  let checksum ← number 4
  demand (5 ≤ length)
  let text ← take (length - 5)
  demand (checksum = (crc32 plain).toNat ∧ (String.fromUTF8? ⟨text.toArray⟩).isSome)
  return text

/-- The times of an entry to the tenth part of a microsecond, in a single part. -/
def fineTimes (length : Nat) : FieldReader Unit := do
  demand (length = 32)
  let _ ← take 4
  demand ((← number 2) = 1)
  demand ((← number 2) = 24)
  let _ ← take 24

/-- How many of the low three bits of a number are set. -/
def timesIn (flags : Nat) : Nat := flags % 2 + flags / 2 % 2 + flags / 4 % 2

/-- The times of an entry in seconds, with flags for those that are there. A field of five bytes
holds one time, whatever the flags say. -/
def times (length : Nat) : FieldReader Unit := do
  let flags ← number 1
  demand (flags < 8)
  demand (length = 5 ∨ length = 1 + 4 * timesIn flags)
  let _ ← take (length - 1)

/-- How the data of an entry is encrypted with AES, and how it was compressed before that. -/
def encryption (length : Nat) : FieldReader Unit := do
  demand (length = 7)
  let version ← number 2
  let vendor ← number 2
  let strength ← number 1
  let method ← number 2
  demand (vendor = 0x4541)
  demand (version = 1 ∨ version = 2)
  demand (1 ≤ strength ∧ strength ≤ 3)
  change fun entry => { entry with aes := true, method := method }

/-- A field of a kind and a length. A field of any other kind is passed over. -/
def field (kind length : Nat) : FieldReader Unit := do
  if kind = 0x0001 then widths length
  else if kind = 0x000A then fineTimes length
  else if kind = 0x5455 then times length
  else if kind = 0x6375 then
    let comment ← spelling length (← entry).comment
    change fun entry => { entry with comment := comment }
  else if kind = 0x7075 then
    let name ← spelling length (← entry).name
    change fun entry => { entry with name := name }
  else if kind = 0x9901 then encryption length
  else
    let _ ← take length

/-- A number of fields at most, as far as the bytes go. -/
def fields : Nat → FieldReader Unit
  | 0 => return
  | count + 1 => do
    if (← get).rest.isEmpty then return
    let kind ← number 2
    field kind (← number 2)
    fields count

end FieldReader

/-- The entry with its further fields. Each of them takes at least four bytes. -/
def Entry.extend? (entry : Entry) (extra : List UInt8) : Option Entry :=
  match (FieldReader.fields extra.length).run.run ⟨extra, entry⟩ with
  | (.error .senseless, _) => none
  | (_, state) => some state.entry

end ScriptChart.Archive
