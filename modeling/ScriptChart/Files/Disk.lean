import Std.Data.HashMap.Lemmas
import ScriptChart.Files.Path

/-!
# Disks

A disk holds directories and files at places. A place is told by the names on the way to it from
the root. A path leads to a place by going from directory to directory, from the root or from the
directory that a program works in.

## Main definitions

* `Entry`, `Place`, `Disk`: what stands where.
* `Disk.place?`, `Disk.look?`: where a path leads and what stands there.
* `Disk.put`, `Disk.write?`, `Disk.makeDirectories`: changes to a disk.

## Main results

* `Disk.occupant?_put_self`, `Disk.occupant?_put_of_ne`: what stands at a place after a change.
* `Disk.look?_write?`: what is written to a path is found there.
-/

namespace ScriptChart.Files

/-- What stands at a place. -/
inductive Entry where
  | directory
  | file (bytes : List UInt8)
deriving DecidableEq, Repr

/-- A place of a disk: the names on the way to it from the root, the last one first. -/
abbrev Place := List String

/-- The path from the root to a place. -/
def Place.path (place : Place) : String := "/" ++ "/".intercalate place.reverse

/-- Directories and files, and the directory that a program works in. -/
structure Disk where
  /-- What stands at the places below the root. -/
  holds : Std.HashMap Place Entry
  /-- Where paths start that do not start from the root. -/
  home : Place

/-- Whether a text can be the name of a directory or a file: it has at most 255 bytes, and none of
them is zero. -/
def isName (name : String) : Bool := name.utf8ByteSize ≤ 255 && !name.toList.contains '\x00'

namespace Disk

/-- The directories on the way from the root to a place, with the last one. -/
def trunk : Place → Std.HashMap Place Entry
  | [] => ∅
  | name :: parent => (trunk parent).insert (name :: parent) .directory

/-- A disk that holds nothing but the directory that a program works in. -/
def empty (home : Place) : Disk := { holds := trunk home, home := home }

/-- What stands at a place. The root is a directory. -/
def occupant? (disk : Disk) : Place → Option Entry
  | [] => some .directory
  | name :: parent => disk.holds[name :: parent]?

/-- Whether a place is a directory. -/
def isDirectory (disk : Disk) (place : Place) : Bool :=
  match disk.occupant? place with
  | some .directory => true
  | _ => false

/-- Where a piece of a path leads from a directory. -/
def step? (disk : Disk) (place : Place) (piece : String) : Option Place :=
  -- even a piece that stays where it is asks for a directory
  if !disk.isDirectory place then none
  else if staysPut piece then some place
  else if piece = ".." then some place.tail
  else if isName piece then some (piece :: place)
  else none

/-- Where a path starts. -/
def start (disk : Disk) (path : String) : Place := if isRooted path then [] else disk.home

/-- Where a path leads. All that it goes through has to be a directory; nothing has to stand where
it ends. -/
def place? (disk : Disk) (path : String) : Option Place :=
  if isPath path then (pieces path).foldlM disk.step? (disk.start path) else none

/-- What stands where a path leads. -/
def look? (disk : Disk) (path : String) : Option Entry := (disk.place? path).bind disk.occupant?

/-- Whether a path leads to a file. -/
def isFile (disk : Disk) (path : String) : Bool :=
  match disk.look? path with
  | some (.file _) => true
  | _ => false

/-- Where a piece of a path leads from a directory, if the path from the root to there can be
followed. -/
def stepWithin? (disk : Disk) (place : Place) (piece : String) : Option Place :=
  (disk.step? place piece).filter fun next => isPath next.path

/-- The path from the root to where a path leads, if something stands there and all paths on the
way can be followed. -/
def absolute? (disk : Disk) (path : String) : Option String := do
  guard (isPath path)
  let place ← (pieces path).foldlM disk.stepWithin? (disk.start path)
  let _ ← disk.occupant? place
  return place.path

/-- Puts a directory or a file at a place, instead of what stood there. -/
def put (disk : Disk) (place : Place) (entry : Entry) : Disk :=
  { disk with holds := disk.holds.insert place entry }

/-- Writes a file, which may be there already. A directory is not overwritten. -/
def write? (disk : Disk) (path : String) (bytes : List UInt8) : Option Disk := do
  let place ← disk.place? path
  if disk.isDirectory place then none else some (disk.put place (.file bytes))

/-- Makes a directory at a place where nothing stands. -/
def makeDirectory (disk : Disk) (place : Place) : Disk :=
  match disk.occupant? place with
  | some _ => disk
  | none => disk.put place .directory

/-- Goes along the pieces of a path and makes the directories that are missing. Tells whether the
path leads to a directory then. -/
def makeAlong (disk : Disk) (place : Place) : List String → Bool × Disk
  | [] => (disk.isDirectory place, disk)
  | piece :: rest =>
    match disk.step? place piece with
    | some next => (disk.makeDirectory next).makeAlong next rest
    | none => (false, disk)

/-- Makes the directories that a path goes through and the one that it leads to. -/
def makeDirectories (disk : Disk) (path : String) : Bool × Disk :=
  if isPath path then disk.makeAlong (disk.start path) (pieces path) else (false, disk)

theorem occupant?_put_self (disk : Disk) {place : Place} (below : place ≠ []) (entry : Entry) :
    (disk.put place entry).occupant? place = some entry := by
  obtain ⟨name, parent, rfl⟩ := List.exists_cons_of_ne_nil below
  simp [occupant?, put]

theorem occupant?_put_of_ne (disk : Disk) {place other : Place} (apart : other ≠ place)
    (entry : Entry) : (disk.put place entry).occupant? other = disk.occupant? other := by
  cases other with
  | nil => rfl
  | cons name parent => simp [occupant?, put, Std.HashMap.getElem?_insert, Ne.symm apart]

theorem isDirectory_put_file {disk : Disk} {place : Place} (bytes : List UInt8)
    (other : Place) (free : disk.isDirectory place = false) :
    (disk.put place (.file bytes)).isDirectory other = disk.isDirectory other := by
  by_cases same : other = place
  · subst same
    have below : other ≠ [] := by
      rintro rfl
      simp [isDirectory, occupant?] at free
    rw [free]
    simp [isDirectory, occupant?_put_self _ below]
  · simp [isDirectory, occupant?_put_of_ne _ same]

theorem place?_put_file {disk : Disk} {place : Place} (bytes : List UInt8) (path : String)
    (free : disk.isDirectory place = false) :
    (disk.put place (.file bytes)).place? path = disk.place? path := by
  have steps : (disk.put place (.file bytes)).step? = disk.step? := by
    funext base piece
    simp only [step?, isDirectory_put_file bytes base free]
  simp only [place?, steps]
  rfl

theorem look?_write? {disk written : Disk} {path : String} {bytes : List UInt8}
    (success : disk.write? path bytes = some written) :
    written.look? path = some (.file bytes) := by
  simp only [write?, bind, Option.bind_eq_some_iff] at success
  obtain ⟨place, found, success⟩ := success
  by_cases taken : disk.isDirectory place = true
  · simp [taken] at success
  · simp only [taken, if_false, Option.some.injEq, Bool.false_eq_true] at success
    subst success
    have free : disk.isDirectory place = false := by simpa using taken
    have below : place ≠ [] := by
      rintro rfl
      simp [isDirectory, occupant?] at free
    simp [look?, place?_put_file bytes path free, found, occupant?_put_self _ below]

end Disk

end ScriptChart.Files
