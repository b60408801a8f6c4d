import ScriptChart.Chart.File
import ScriptChart.CommandLine.Arguments
import ScriptChart.CommandLine.Stage
import ScriptChart.Phrase.File

/-!
# Runs

A run reads a project, draws its chart, and delivers the text to a file or shows it. It announces
its stages, and ends at the first that fails; nothing is delivered then.

## Main definitions

* `Failure`, `Failure.messages`: why a run ends early.
* `prepare`: the chart that a run is asked for.
* `deliver`: hands over the text of a chart.
* `run`: the whole.
-/

namespace ScriptChart.CommandLine

open ScriptChart.Files ScriptChart.Phrase ScriptChart.Project

/-- Why a run ends early. -/
inductive Failure where
  /-- There is no input. -/
  | input (fault : InputFault)
  /-- The input holds no program. -/
  | load (path : String) (fault : LoadError)
  /-- The dictionary in a file cannot be used. -/
  | dictionary (fault : DictionaryError)
  /-- The directory of the output cannot be made. -/
  | noDirectory
  /-- The output cannot be written. -/
  | unwritable (path : String)
deriving DecidableEq, Repr

/-- The reasons in words, each the cause of the one before it. -/
def Failure.messages : Failure → List String
  | .input fault => fault.messages
  | .load path fault => ["Failed to load project '" ++ path ++ "'.", fault.message]
  | .dictionary fault => [fault.message]
  | .noDirectory => []
  | .unwritable path => ["Failed to write '" ++ path ++ "'."]

/-- The number of stages of a run. -/
def Arguments.stages (arguments : Arguments) : Nat :=
  if arguments.output.isSome then 4 else 3

/-- What is shown when a stage of a run begins. -/
def Arguments.announcement (arguments : Arguments) (stage : Stage) : String :=
  stage.line arguments.stages

variable {m : Type → Type} [Monad m]

/-- The chart that a run is asked for. -/
def prepare (host : Host m) (arguments : Arguments) : ExceptT Failure m Chart := do
  host.report (arguments.announcement .input)
  let input ← (host.inputFile arguments.input).adapt .input
  host.report (arguments.announcement .project)
  let program ← (Program.ofFile host input).adapt (.load input)
  let dictionary ← (Dictionary.select host arguments.dictionary arguments.locale).adapt .dictionary
  host.report (arguments.announcement .chart)
  return Chart.ofProgram program
    ⟨arguments.name.getD (stem input), arguments.direction, dictionary⟩

/-- Shows the faults that were met, if they are asked for. -/
def warn (host : Host m) (arguments : Arguments) (chart : Chart) : m Unit :=
  if arguments.diagnostics then
    chart.diagnostics.forM fun fault => host.report ("warning: " ++ fault.message)
  else pure ()

/-- Writes a text to a file, and makes the directory that the file lies in. -/
def save (host : Host m) (path text : String) : ExceptT Failure m Unit := do
  -- the working directory is there already
  if directory path ≠ "" then
    if !(← host.makeDirectories (directory path)) then throw .noDirectory
  if !(← host.write path text.toUTF8.toList) then throw (.unwritable path)

/-- Hands over the text of a chart: to the output if there is one, else by showing it. -/
def deliver (host : Host m) (arguments : Arguments) (chart : Chart) : ExceptT Failure m Unit :=
  match arguments.output with
  | some path => do
    host.report (arguments.announcement .output)
    save host path chart.text
  | none => host.print chart.text

/-- Does what is asked for. -/
def run (host : Host m) (arguments : Arguments) : ExceptT Failure m Unit := do
  let chart ← prepare host arguments
  ExceptT.lift (warn host arguments chart)
  deliver host arguments chart

end ScriptChart.CommandLine
