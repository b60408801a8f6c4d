import ScriptChart.Files.Host
import ScriptChart.Phrase.Text

/-!
# Dictionaries in files

A dictionary in a file takes the place of the one of a locale.

## Main definitions

* `DictionaryError`: why the dictionary in a file cannot be used.
* `Dictionary.ofFile`, `Dictionary.select`: the dictionary in a file, and the one to use.
-/

namespace ScriptChart.Phrase

open ScriptChart.Files

/-- Why the dictionary in a file cannot be used. -/
inductive DictionaryError where
  /-- The file cannot be read, or it does not hold text. -/
  | unreadable (path : String)
  /-- The text is not an object of strings. -/
  | malformed (path : String)
deriving DecidableEq, Repr

/-- The reason in words. -/
def DictionaryError.message : DictionaryError → String
  | .unreadable path => "Failed to read translations '" ++ path ++ "'."
  | .malformed path => "Translations '" ++ path ++ "' must be a JSON object of strings."

namespace Dictionary

variable {m : Type → Type} [Monad m]

/-- The dictionary in the file at a path. -/
def ofFile (host : Host m) (path : String) : ExceptT DictionaryError m Dictionary := do
  match ← host.look? path with
  | some (.file bytes) =>
    match String.fromUTF8? ⟨bytes.toArray⟩ with
    | some text =>
      match ofText? text with
      | some dictionary => return dictionary
      | none => throw (.malformed path)
    | none => throw (.unreadable path)
  | _ => throw (.unreadable path)

/-- The dictionary to use: the one in a file if there is such a file, else that of the locale. -/
def select (host : Host m) (path : Option String) (locale : LocaleName) :
    ExceptT DictionaryError m Dictionary :=
  match path with
  | some path => ofFile host path
  | none => return ofLocale locale

end Dictionary

end ScriptChart.Phrase
