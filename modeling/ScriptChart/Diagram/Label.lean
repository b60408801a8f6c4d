import ScriptChart.Text.Blank

/-!
# Labels

Text written on a node or an edge of a diagram. The characters that delimit shapes, edges and
quotations are written as entity codes, and every other blank or control character becomes one
space, so that no label can end the line or the shape that it stands in.

## Main definitions

* `entityCode?`: the code written for a delimiter.
* `isMetachar`: the characters that are not written as they are.
* `sanitize`: a text as it is written in a label.
-/

namespace ScriptChart.Diagram

open ScriptChart.Text

/-- The code written for a character that delimits shapes, edge labels or quotations. -/
def entityCode? (c : Char) : Option String :=
  match c with
  | '[' => some "#91;"
  | ']' => some "#93;"
  | '{' => some "#123;"
  | '}' => some "#125;"
  | '(' => some "#40;"
  | ')' => some "#41;"
  | '|' => some "#124;"
  | '"' => some "#quot;"
  | '\'' => some "#39;"
  | '\x60' => some "#96;"
  | '<' => some "#lt;"
  | '>' => some "#gt;"
  | _ => none

/-- Whether a character would break the line it stands on: any blank or control character except
the plain space. -/
def isLayout (c : Char) : Bool := c != ' ' && (isBlank c || isControl c)

/-- Whether a character is not written as it is in a label. -/
def isMetachar (c : Char) : Bool := (entityCode? c).isSome || isLayout c

/-- One character as it is written in a label. -/
def escape (c : Char) : List Char :=
  match entityCode? c with
  | some code => code.toList
  | none => if isLayout c then [' '] else [c]

/-- A text as it is written in a label. -/
def sanitize (text : String) : String := String.ofList (text.toList.flatMap escape)

@[simp]
theorem toList_sanitize (text : String) :
    (sanitize text).toList = text.toList.flatMap escape := by
  simp [sanitize]

theorem escape_of_not_isMetachar {c : Char} (plain : isMetachar c = false) : escape c = [c] := by
  simp only [isMetachar, Bool.or_eq_false_iff] at plain
  have noCode : entityCode? c = none :=
    Option.isNone_iff_eq_none.mp (Option.isSome_eq_false_iff.mp plain.1)
  simp [escape, noCode, plain.2]

end ScriptChart.Diagram
