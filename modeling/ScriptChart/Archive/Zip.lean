import ScriptChart.Archive.Entry
import ScriptChart.Archive.Inflate

/-!
# Archives

An archive holds entries, and at its end a directory that lists them. The directory is found from
a record behind it, which is searched from the end of the archive, since a comment may follow it.
Anything may stand before the archive; the offsets in it then count from where it begins. An
archive too large for the fields of these records has a second, wider record, and wider fields in
the entries of the directory.

A record that does not fit the archive is passed over and the search goes on before it. What an
entry holds is looked at only when the entry is opened.

## Main definitions

* `directory?`: the entries of an archive.
* `Entry.contents`: the bytes of an entry.
* `findEntry?`: the entry of a name.
-/

namespace ScriptChart.Archive

/-! ### The end of the archive -/

/-- Where the directory is and how many entries it lists. -/
structure DirectoryInfo where
  /-- Where the archive begins. -/
  base : Nat
  /-- Where the directory begins. -/
  start : Nat
  /-- The number of entries. -/
  count : Nat
  /-- Whether the archive lies on one disk. -/
  singleDisk : Bool

/-- Where the directory is, by the record behind it. Its first entry is searched from the offset
in the record on, since anything that stands before the archive can only move it behind. -/
def infoOfEnd? (bytes record : List UInt8) (place : Nat) : Option DirectoryInfo :=
  let offset := fieldOf record 16 4
  let single := fieldOf record 4 2 == fieldOf record 6 2
  let count := fieldOf record 8 2
  if fieldOf record 10 2 = 0 then
    -- an empty directory ends where it begins
    let base := place - offset
    some ⟨base, offset + base, count, single⟩
  else if place ≤ offset then none
  else
    match placesWithin bytes listingSignature offset place with
    | [] => none
    | first :: _ => some ⟨first - offset, first, count, single⟩

/-- Where the directory is, by the wider record at a place, which the locator must agree with. -/
def infoOfWideEnd? (bytes locator : List UInt8) (locatorPlace place : Nat) :
    Option DirectoryInfo := do
  let record ← recordAt? bytes wideEndSignature place 56
  let size := fieldOf record 4 8
  let count := fieldOf record 32 8
  let offset := fieldOf record 48 8
  let base := place - fieldOf locator 8 8
  -- the size leaves out the first twelve bytes of the record
  if size + 12 ≠ locatorPlace - place ∨ size < 44 then none
  else if fieldOf record 20 4 ≠ fieldOf locator 4 4 then none
  else if place < count * 46 + offset then none
  else some ⟨base, offset + base, count, fieldOf record 16 4 == fieldOf record 20 4⟩

/-- Whether a wider record is one that can be trusted: not more entries on this disk than there
are, and not made by an older version than is needed. -/
def isSoundWideEnd (bytes : List UInt8) (place : Nat) : Bool :=
  let record := (bytes.drop place).take 56
  fieldOf record 24 8 ≤ fieldOf record 32 8 && fieldOf record 14 2 ≤ fieldOf record 12 2

/-- Where the directory is, by the first wider record that fits. -/
def infoOfLocator? (bytes locator : List UInt8) (locatorPlace : Nat) : Option DirectoryInfo :=
  let offset := fieldOf locator 8 8
  if locatorPlace ≤ offset ∨ 1 < fieldOf locator 16 4 then none
  else
    match (placesWithin bytes wideEndSignature offset locatorPlace).findSome? fun place =>
      (infoOfWideEnd? bytes locator locatorPlace place).map fun info => (place, info) with
    | some (place, info) => if isSoundWideEnd bytes place then some info else none
    | none => none

/-- Where the directory is, by the record at a place. -/
def infoAt? (bytes : List UInt8) (place : Nat) : Option DirectoryInfo := do
  let record ← recordAt? bytes endSignature place 22
  if bytes.length < place + 22 + fieldOf record 20 2 then none
  else
    -- a field that is filled up has its number in the wider record
    let mayBeWide := fieldOf record 10 2 == limit16 || fieldOf record 16 4 == limit32
    let locator? :=
      if mayBeWide && 20 ≤ place then recordAt? bytes locatorSignature (place - 20) 20 else none
    match locator? with
    | some locator => infoOfLocator? bytes locator (place - 20)
    | none => infoOfEnd? bytes record place

/-! ### The directory -/

/-- The method of an entry that is encrypted with AES and has a field that tells the real one. -/
def aesMethod : Nat := 99

/-- The entry at the front of a part of the directory, and the part behind it. Its own header must
lie before the directory. -/
def listing? (info : DirectoryInfo) (rest : List UInt8) : Option (Entry × List UInt8) := do
  let record ← recordAt? rest listingSignature 0 46
  let nameLength := fieldOf record 28 2
  let extraLength := fieldOf record 30 2
  let commentLength := fieldOf record 32 2
  let behind := rest.drop 46
  guard (nameLength + extraLength + commentLength ≤ behind.length)
  let comment := (behind.drop (nameLength + extraLength)).take commentLength
  let short : Entry :=
    { name := behind.take nameLength
      comment := commentOf (fieldOf record 8 2 / 2048 % 2 == 1) comment
      encrypted := fieldOf record 8 2 % 2 == 1
      aes := false
      method := fieldOf record 10 2
      checksum := fieldOf record 16 4
      compressedSize := fieldOf record 20 4
      uncompressedSize := fieldOf record 24 4
      header := fieldOf record 42 4 }
  let extended ← short.extend? ((behind.drop nameLength).take extraLength)
  guard (extended.method = aesMethod → extended.aes)
  let entry := { extended with header := extended.header + info.base }
  guard (entry.header < info.start)
  return (entry, behind.drop (nameLength + extraLength + commentLength))

/-- A number of entries of the directory. Every entry takes at least one byte. -/
def listings? (info : DirectoryInfo) : Nat → List UInt8 → Option (List Entry)
  | 0, _ => some []
  | count + 1, rest => do
    let (entry, behind) ← listing? info rest
    return entry :: (← listings? info count behind)

/-- The entries that the directory lists. -/
def entriesOf? (bytes : List UInt8) (info : DirectoryInfo) : Option (List Entry) :=
  if info.singleDisk then listings? info info.count (bytes.drop info.start) else none

/-- The entries of an archive: those of the last record that fits. -/
def directory? (bytes : List UInt8) : Option (List Entry) :=
  (placesOf endSignature 0 bytes).reverse.findSome? fun place =>
    (infoAt? bytes place).bind (entriesOf? bytes)

/-! ### The data of an entry -/

/-- How an entry turns out to be read. -/
inductive Contents where
  /-- The entry cannot be opened: it has no header of its own, it is encrypted, or it is compressed
  in another way. -/
  | closed
  /-- The data is damaged. -/
  | damaged
  | bytes (data : List UInt8)

/-- Where the data of an entry begins, behind the entry's own header. That may be behind the end of
the archive. -/
def Entry.dataStart? (entry : Entry) (bytes : List UInt8) : Option Nat := do
  let header ← recordAt? bytes entrySignature entry.header 30
  return entry.header + 30 + fieldOf header 26 2 + fieldOf header 28 2

/-- The bytes of an entry, which must have the checksum that the directory lists. -/
def Entry.contents (entry : Entry) (archive : List UInt8) : Contents :=
  match entry.dataStart? archive with
  | none => .closed
  | some start =>
    let stored := (archive.drop start).take entry.compressedSize
    let checked (data : List UInt8) : Contents :=
      if (crc32 data).toNat = entry.checksum then .bytes data else .damaged
    if entry.encrypted || entry.aes then .closed
    else if entry.method = 0 then checked stored
    else if entry.method = 8 then
      match inflate? stored with
      | some data => checked data
      | none => .damaged
    else .closed

/-- The entry of a name. Of several entries the last one counts. -/
def findEntry? (entries : List Entry) (name : String) : Option Entry :=
  entries.reverse.find? fun entry => entry.name == name.toUTF8.toList

end ScriptChart.Archive
