import ScriptChart.CommandLine.Run

/-!
# The program

Draws the flowchart of a project. This is the outer layer: it hands the words of the command line
to `Arguments.ofWords` and the arguments to `run`, and gives `run` the files and the streams of the
process.

## Main definitions

* `process`: the host that the process runs on.
* `main`: the program.
-/

namespace ScriptChart.CommandLine

open ScriptChart.Files

/-- Whether an action succeeds. -/
def succeeds (action : IO Unit) : IO Bool := do
  match ← action.toBaseIO with
  | .ok _ => return true
  | .error _ => return false

/-- What stands where a path leads, with the file's contents read. -/
def lookUp (path : String) : IO (Option Entry) := do
  let place := System.mkFilePath [path]
  if ← place.isDir then return some .directory
  match ← (IO.FS.readBinFile place).toBaseIO with
  | .ok bytes => return some (.file bytes.toList)
  | .error _ => return none

/-- Whether a path leads to a file. -/
def leadsToFile (path : String) : IO Bool := do
  match ← (System.mkFilePath [path]).metadata.toBaseIO with
  | .ok data => return data.type == .file
  | .error _ => return false

/-- The host that the process runs on. -/
def process : Host IO where
  isFile := leadsToFile
  look? := lookUp
  absolute? path := do
    match ← (IO.FS.realPath path).toBaseIO with
    | .ok found => return some found.toString
    | .error _ => return none
  makeDirectories path := succeeds (IO.FS.createDirAll path)
  write path bytes := succeeds (IO.FS.writeBinFile path ⟨bytes.toArray⟩)
  print text := do
    let output ← IO.getStdout
    output.putStr text
    output.flush
  report line := IO.eprintln line

/-- How the program is called. -/
def usage : String :=
  "Usage: scriptchart [OPTIONS] <INPUT> [OUTPUT]\n\n" ++
  "Draw the scripts of a Scratch 3 project (.sb3 or project.json) as a Mermaid flowchart.\n\n" ++
  "  --name <NAME>            Label of the root. Defaults to the name of the input.\n" ++
  "  --locale <zh-cn|en>      Dictionary that is built in.\n" ++
  "  --translations <FILE>    Dictionary to use instead, as a JSON object.\n" ++
  "  --direction <td|lr>      Which way the diagram is laid out.\n" ++
  "  --diagnostics            Print the faults of the project.\n" ++
  "  -h, --help               Print this help.\n"

/-- What is wrong with a command line, in words. -/
def UsageFault.message : UsageFault → String
  | .unknownArgument => "unexpected argument"
  | .invalidValue => "missing or invalid value"
  | .missingInput => "no input file given"
  | .repeatedArgument => "an argument cannot be used more than once"
  | .unexpectedValue => "unexpected value for a flag"
  | .helpRequested => "help requested"

/-- What is wrong when a failure has no words of its own. -/
def plainWords : Failure → String
  | .input _ => "the path of the input cannot be followed."
  | _ => "the output directory cannot be created."

/-- Shows why a run ended early. -/
def explain (failure : Failure) : IO Unit := do
  match failure.messages with
  | [] => IO.eprintln ("Error: " ++ plainWords failure)
  | first :: causes =>
    IO.eprintln ("Error: " ++ first)
    for cause in causes do
      IO.eprintln ("Caused by: " ++ cause)

end ScriptChart.CommandLine

open ScriptChart.CommandLine in
/-- Draws what the command line asks for. -/
def main (words : List String) : IO UInt32 := do
  match Arguments.ofWords words with
  | .error .helpRequested =>
    IO.print usage
    return 0
  | .error fault =>
    IO.eprintln ("error: " ++ fault.message)
    IO.eprint usage
    return 2
  | .ok arguments =>
    match ← (run process arguments).run with
    | .ok () => return 0
    | .error failure =>
      explain failure
      return 1
