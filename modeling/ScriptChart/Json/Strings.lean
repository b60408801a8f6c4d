import ScriptChart.Json.Value

/-!
# Strings, lists of strings and tables of strings

The shapes of JSON text that hold nothing but strings.

## Main definitions

* `Tree.string?`, `Tree.strings?`, `Tree.stringTable?`: a tree of one of these shapes.
* `stringsOfText?`, `stringTableOfText?`: the same for a whole text.
-/

namespace ScriptChart.Json

namespace Tree

/-- The string that a tree consists of. -/
def string? : Tree → Option String
  | .scalar (.string literal) => Literal.text? literal
  | _ => none

/-- The strings of an array that holds nothing else. -/
def strings? : Tree → Option (List String)
  | .array items => items.mapM string?
  | _ => none

/-- The members of an object whose values are strings. -/
def stringTable? : Tree → Option (OrderedMap String)
  | .object members => do
    let read ← members.mapM fun member => do
      return ((← Literal.text? member.1), (← string? member.2))
    return OrderedMap.ofList read
  | _ => none

end Tree

/-- The strings that a text lists. -/
def stringsOfText? (text : String) : Option (List String) :=
  (Tree.ofText? text).bind Tree.strings?

/-- The table of strings that a text holds. -/
def stringTableOfText? (text : String) : Option (OrderedMap String) :=
  (Tree.ofText? text).bind Tree.stringTable?

end ScriptChart.Json
