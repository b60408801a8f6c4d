import ScriptChart.Archive.Zip
import ScriptChart.Project.Decode

/-!
# Loading a program

A program comes as JSON text, or as an archive with an entry that holds the text. Loading fails for
one of a few reasons.

## Main definitions

* `LoadError`, `LoadError.message`: why a program cannot be loaded.
* `Program.ofJson`, `Program.ofArchive`: a program from the bytes of a text or an archive.
-/

namespace ScriptChart.Project

/-- Why a program cannot be loaded. -/
inductive LoadError where
  /-- The file cannot be read. -/
  | unreadable (path : String)
  /-- The bytes are no archive. -/
  | notArchive
  /-- The archive has no entry for the project that can be opened. -/
  | noProjectEntry
  /-- The entry for the project is damaged. -/
  | damagedEntry
  /-- The text does not describe a project. -/
  | notProject
deriving DecidableEq, Repr

/-- The reason in words. -/
def LoadError.message : LoadError → String
  | .unreadable path => "Failed to read '" ++ path ++ "'."
  | .notArchive => "Not a valid zip/.sb3 archive."
  | .noProjectEntry => "project.json not found in archive."
  | .damagedEntry => "Failed to read project.json from archive."
  | .notProject => "Invalid project.json."

/-- The entry of an archive that holds the project. -/
def projectEntry : String := "project.json"

namespace Program

/-- The program that a JSON text describes. -/
def ofJson (bytes : List UInt8) : Except LoadError Program :=
  match ofBytes? bytes with
  | some program => .ok program
  | none => .error .notProject

/-- The program that an archive holds. -/
def ofArchive (bytes : List UInt8) : Except LoadError Program :=
  match Archive.directory? bytes with
  | none => .error .notArchive
  | some entries =>
    match Archive.findEntry? entries projectEntry with
    | none => .error .noProjectEntry
    | some entry =>
      match entry.contents bytes with
      | .closed => .error .noProjectEntry
      | .damaged => .error .damagedEntry
      | .bytes text => ofJson text

end Program

end ScriptChart.Project
