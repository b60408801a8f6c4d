import ScriptChart.Chart.Basic
import ScriptChart.Project.File

/-!
# Charts of files

The chart of the program in a file, named for the file.

## Main definitions

* `Chart.FileError`: why there is no chart of a file.
* `Chart.ofFile`: the chart of a file.
-/

namespace ScriptChart.Chart

open ScriptChart.Files ScriptChart.Phrase ScriptChart.Project

/-- Why there is no chart of a file. -/
inductive FileError where
  /-- There is no input. -/
  | input (fault : InputFault)
  /-- The file holds no program. -/
  | load (fault : LoadError)
deriving DecidableEq, Repr

/-- The reason in words. -/
def FileError.messages : FileError → List String
  | .input fault => fault.messages
  | .load fault => [fault.message]

/-- The chart of the program in the file at a path, from top to bottom. -/
def ofFile {m : Type → Type} [Monad m] (host : Host m) (path : String) (locale : LocaleName) :
    ExceptT FileError m Chart := do
  let input ← (host.inputFile path).adapt .input
  let program ← (Program.ofFile host input).adapt .load
  return ofProgram program ⟨stem input, .topDown, .ofLocale locale⟩

end ScriptChart.Chart
