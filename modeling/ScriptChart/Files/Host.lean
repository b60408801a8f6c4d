import ScriptChart.Files.Disk

/-!
# Hosts

What a program asks of the system that it runs on: to look at its files and to change them, and to
show text. Where the files of a system have a state, there is a host that collects the text beside
it; a host that is kept in memory has the files of a disk.

## Main definitions

* `Host`: the questions and commands.
* `FileSystem`, `World`: the files of a system, and their state with the text that was shown.
* `Host.ofSystem`, `Host.inMemory`: the hosts that they make.
* `Host.inputFile`: the file that a program is to read.
-/

namespace ScriptChart.Files

/-- What a program asks of the system that it runs on. -/
structure Host (m : Type → Type) where
  /-- Whether a path leads to a file. -/
  isFile : String → m Bool
  /-- What stands where a path leads. -/
  look? : String → m (Option Entry)
  /-- The path from the root to where a path leads, if it can be followed. -/
  absolute? : String → m (Option String)
  /-- Makes a directory and those that it lies in; tells whether it is there then. -/
  makeDirectories : String → m Bool
  /-- Writes a file; tells whether that was possible. -/
  write : String → List UInt8 → m Bool
  /-- Shows text as a result. -/
  print : String → m Unit
  /-- Shows a line about the progress or about a fault. -/
  report : String → m Unit

/-- The files of a system: what it answers about them, and how its commands change them. A file that
is there may be closed to a program, a path may go through links, and a command that fails may have
changed something. -/
structure FileSystem (φ : Type) where
  /-- Whether a path leads to a file. -/
  isFile : φ → String → Bool
  /-- What can be read where a path leads. -/
  look? : φ → String → Option Entry
  /-- The path from the root to where a path leads, if it can be followed. -/
  absolute? : φ → String → Option String
  /-- Makes a directory and those that it lies in; tells whether it is there then. -/
  makeDirectories : φ → String → Bool × φ
  /-- Writes a file; tells whether that was possible. -/
  write : φ → String → List UInt8 → Bool × φ

/-- Files, and the text that was shown. -/
structure World (φ : Type) where
  disk : φ
  /-- The text that was shown as a result. -/
  printed : String
  /-- The lines that were shown about the progress and about faults. -/
  reported : String

/-- A world in which nothing was shown yet. -/
def World.start {φ : Type} (disk : φ) : World φ := ⟨disk, "", ""⟩

/-- The files of a disk that is kept in memory. -/
def Disk.files : FileSystem Disk where
  isFile := Disk.isFile
  look? := Disk.look?
  absolute? := Disk.absolute?
  makeDirectories := Disk.makeDirectories
  write disk path bytes :=
    match disk.write? path bytes with
    | some written => (true, written)
    | none => (false, disk)

@[simp]
theorem Disk.look?_files (disk : Disk) (path : String) :
    Disk.files.look? disk path = disk.look? path := rfl

/-- A disk, and the text that was shown. -/
abbrev Session := World Disk

namespace Host

/-- The host that has the files of a system and collects the text. -/
def ofSystem {φ : Type} (system : FileSystem φ) : Host (StateM (World φ)) where
  isFile path := fun world => (system.isFile world.disk path, world)
  look? path := fun world => (system.look? world.disk path, world)
  absolute? path := fun world => (system.absolute? world.disk path, world)
  makeDirectories path := fun world =>
    let (made, disk) := system.makeDirectories world.disk path
    (made, { world with disk := disk })
  write path bytes := fun world =>
    let (wrote, disk) := system.write world.disk path bytes
    (wrote, { world with disk := disk })
  print text := fun world => ((), { world with printed := world.printed ++ text })
  report line := fun world =>
    ((), { world with reported := world.reported ++ line ++ "\n" })

/-- The host that is kept in memory. -/
abbrev inMemory : Host (StateM Session) := ofSystem Disk.files

end Host

/-- Why there is no input to read. -/
inductive InputFault where
  /-- The path does not lead to a file. -/
  | missing (path : String)
  /-- There is a file, but the path from the root to it cannot be followed. -/
  | unreachable
deriving DecidableEq, Repr

/-- The fault in words. -/
def InputFault.messages : InputFault → List String
  | .missing path => ["Input file not found: '" ++ path ++ "'."]
  | .unreachable => []

/-- The file that a program is to read, by its path from the root. -/
def Host.inputFile {m : Type → Type} [Monad m] (host : Host m) (path : String) :
    ExceptT InputFault m String := do
  if ← host.isFile path then
    match ← host.absolute? path with
    | some found => return found
    | none => throw .unreachable
  else throw (.missing path)

end ScriptChart.Files
