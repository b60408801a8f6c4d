import ScriptChart.Files.Host
import ScriptChart.Project.Load

/-!
# Programs in files

A program is read from a file. What kind of file it is is told by its name and by how it begins.

## Main definitions

* `Program.ofFileBytes`: the program that a file of a given name holds.
* `Program.ofFile`, `Program.ofArchiveFile`: the program at a path.
-/

namespace ScriptChart.Project

open ScriptChart.Files

/-- How the bytes of an archive usually begin. -/
def archiveMark : List UInt8 := [0x50, 0x4b]

namespace Program

/-- The program that a file holds. A file that is named as JSON text, or that does not begin as an
archive does, is read as JSON text; any other is read as an archive. -/
def ofFileBytes (path : String) (bytes : List UInt8) : Except LoadError Program :=
  if hasExtension "json" path || !archiveMark.isPrefixOf bytes then ofJson bytes
  else ofArchive bytes

variable {m : Type → Type} [Monad m]

/-- The program in the file at a path. -/
def ofFile (host : Host m) (path : String) : ExceptT LoadError m Program := do
  match ← host.look? path with
  | some (.file bytes) => ofFileBytes path bytes
  | _ => throw (.unreadable path)

/-- The program in the archive at a path. A directory can be opened as a file can, but it holds no
archive. -/
def ofArchiveFile (host : Host m) (path : String) : ExceptT LoadError m Program := do
  match ← host.look? path with
  | some (.file bytes) => ofArchive bytes
  | some .directory => throw .notArchive
  | none => throw (.unreadable path)

end Program

end ScriptChart.Project
