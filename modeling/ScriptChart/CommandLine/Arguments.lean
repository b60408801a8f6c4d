import ScriptChart.Diagram.Statement
import ScriptChart.Phrase.Dictionary

/-!
# Arguments

The words of a command line are read from left to right. A word names an option, is a flag, or is
plain: the value that an option waits for, or the next of the two places. A value is settled, and
can be refused, only when the next word that needs it settled comes, so that a word that is not
known wins over an ill-formed value just before it.

## Main definitions

* `Arguments`: what a run is asked to do.
* `UsageFault`: why a command line is not accepted.
* `Slot`, `Word`: what a value can be for, and what a word can be.
* `Arguments.ofWords`: the arguments that a command line gives.
-/

namespace ScriptChart.CommandLine

open ScriptChart.Diagram ScriptChart.Phrase

/-- What a run is asked to do. -/
structure Arguments where
  /-- The file with the project. -/
  input : String
  /-- The file for the diagram. Without it the diagram is shown. -/
  output : Option String
  /-- The label of the root. Without it the root is named for the file. -/
  name : Option String
  locale : LocaleName
  /-- The file with the dictionary. Without it the dictionary of the locale is used. -/
  dictionary : Option String
  direction : Direction
  /-- Whether the faults of the project are shown. -/
  diagnostics : Bool

/-- Why a command line is not accepted. -/
inductive UsageFault where
  /-- A word is no option and finds no place. -/
  | unknownArgument
  /-- A value is missing or ill-formed. -/
  | invalidValue
  /-- There is no input. -/
  | missingInput
  /-- An option or a flag is given twice. -/
  | repeatedArgument
  /-- A flag is given a value. -/
  | unexpectedValue
  /-- Help is asked for. -/
  | helpRequested
deriving DecidableEq, Repr

/-- What a value can be for. The first two are filled by place, the others by name. -/
inductive Slot where
  | input
  | output
  | name
  | locale
  | dictionary
  | direction
deriving DecidableEq, Repr

/-- The word that names a locale. -/
def locale? : String → Option LocaleName
  | "zh-cn" => some .chinese
  | "en" => some .english
  | _ => none

/-- The word that names a direction. -/
def direction? : String → Option Direction
  | "td" => some .topDown
  | "lr" => some .leftRight
  | _ => none

/-- What the values settled so far say. -/
structure Draft where
  input : Option String
  output : Option String
  name : Option String
  locale : Option LocaleName
  dictionary : Option String
  direction : Option Direction
  diagnostics : Bool

namespace Draft

/-- Nothing is settled. -/
def blank : Draft := ⟨none, none, none, none, none, none, false⟩

/-- Whether a slot has its value. -/
def isFilled (draft : Draft) : Slot → Bool
  | .input => draft.input.isSome
  | .output => draft.output.isSome
  | .name => draft.name.isSome
  | .locale => draft.locale.isSome
  | .dictionary => draft.dictionary.isSome
  | .direction => draft.direction.isSome

/-- A path as a value. It is not empty. -/
def path? (text : String) : Option String := if text = "" then none else some text

/-- Fills a slot with the value that a text stands for, if it stands for one. -/
def fill? (draft : Draft) (text : String) : Slot → Option Draft
  | .input => (path? text).map fun path => { draft with input := some path }
  | .output => (path? text).map fun path => { draft with output := some path }
  | .name => some { draft with name := some text }
  | .locale => (locale? text).map fun locale => { draft with locale := some locale }
  | .dictionary => (path? text).map fun path => { draft with dictionary := some path }
  | .direction => (direction? text).map fun direction => { draft with direction := some direction }

/-- Settles the value of a slot. A missing value is refused first, then a second one, then one that
is ill-formed. -/
def settle (draft : Draft) (slot : Slot) : Option String → Except UsageFault Draft
  | none => .error .invalidValue
  | some text =>
    if draft.isFilled slot then .error .repeatedArgument
    else
      match draft.fill? text slot with
      | some filled => .ok filled
      | none => .error .invalidValue

/-- The arguments that the settled values make. -/
def arguments (draft : Draft) : Except UsageFault Arguments :=
  match draft.input with
  | none => .error .missingInput
  | some input =>
    .ok
      { input := input
        output := draft.output
        name := draft.name
        locale := draft.locale.getD .chinese
        dictionary := draft.dictionary
        direction := draft.direction.getD .topDown
        diagnostics := draft.diagnostics }

end Draft

/-- What a word of a command line can be. -/
inductive Word where
  /-- The mark after which all words are plain. -/
  | ending
  /-- An option, with its value if that is attached. -/
  | option (slot : Slot) (value : Option String)
  /-- The flag that asks for the faults of the project. -/
  | diagnostics
  /-- The flag that asks for help. -/
  | help
  /-- A flag with a value. -/
  | valuedFlag
  /-- What looks like an option and is none. -/
  | unknown
  /-- A value. -/
  | plain (text : String)
deriving DecidableEq, Repr

namespace Word

/-- The option or flag of a long name, with the value that is attached to it. -/
def ofLong (name : String) (value : Option String) : Word :=
  match name, value with
  | "name", _ => .option .name value
  | "locale", _ => .option .locale value
  | "translations", _ => .option .dictionary value
  | "direction", _ => .option .direction value
  | "diagnostics", none => .diagnostics
  | "diagnostics", some _ => .valuedFlag
  | "help", none => .help
  | "help", some _ => .valuedFlag
  | _, _ => .unknown

/-- Reads a word. Two dashes begin a long name and an equals sign ends it; one dash begins letters,
of which only one is known. -/
def ofChars : List Char → Word
  | ['-', '-'] => .ending
  | '-' :: '-' :: long =>
    match Text.cutAtFirst? '=' long with
    | some (name, value) => ofLong (String.ofList name) (some (String.ofList value))
    | none => ofLong (String.ofList long) none
  | '-' :: 'h' :: _ => .help
  | '-' :: _ :: _ => .unknown
  | text => .plain (String.ofList text)

/-- Reads a word. -/
def ofText (text : String) : Word := ofChars text.toList

end Word

/-- How far a command line has been read. -/
structure Progress where
  draft : Draft
  /-- A slot whose value is not settled yet, with the value if it came already. -/
  pending : Option (Slot × Option String)
  /-- The places that are still free. -/
  places : List Slot

namespace Progress

/-- Nothing has been read. -/
def start : Progress := ⟨.blank, none, [.input, .output]⟩

/-- Settles the pending value. -/
def settled (progress : Progress) : Except UsageFault Draft :=
  match progress.pending with
  | some (slot, value) => progress.draft.settle slot value
  | none => .ok progress.draft

/-- Takes a value for the next free place. -/
def place (progress : Progress) (text : String) : Except UsageFault Progress :=
  match progress.places with
  | [] => .error .unknownArgument
  | slot :: places => do
    let draft ← progress.settled
    return ⟨draft, some (slot, some text), places⟩

/-- Takes an option, whose value may follow as a word of its own. -/
def option (progress : Progress) (slot : Slot) (value : Option String) :
    Except UsageFault Progress := do
  let draft ← progress.settled
  match value with
  | none => return { progress with draft := draft, pending := some (slot, none) }
  | some text =>
    return { progress with draft := ← draft.settle slot (some text), pending := none }

/-- Takes the flag that asks for the faults of the project. -/
def flag (progress : Progress) : Except UsageFault Progress := do
  let draft ← progress.settled
  if draft.diagnostics then throw .repeatedArgument
  return { progress with draft := { draft with diagnostics := true }, pending := none }

/-- Takes a plain word: the value that an option waits for, else the value for the next place. -/
def plain (progress : Progress) (text : String) : Except UsageFault Progress :=
  match progress.pending with
  | some (slot, none) => .ok { progress with pending := some (slot, some text) }
  | _ => progress.place text

/-- Reads the words that are left. -/
def read (progress : Progress) : List String → Except UsageFault Progress
  | [] => .ok progress
  | word :: rest =>
    match Word.ofText word with
    -- what comes behind the mark fills places only
    | .ending => rest.foldlM place progress
    | .option slot value => do (← progress.option slot value).read rest
    | .diagnostics => do (← progress.flag).read rest
    | .help => do
      let _ ← progress.settled
      throw .helpRequested
    -- these two are refused before the pending value is settled
    | .valuedFlag => .error .unexpectedValue
    | .unknown => .error .unknownArgument
    | .plain text => do (← progress.plain text).read rest

end Progress

/-- The arguments that the words of a command line give. -/
def Arguments.ofWords (words : List String) : Except UsageFault Arguments := do
  let progress ← Progress.start.read words
  (← progress.settled).arguments

end ScriptChart.CommandLine
