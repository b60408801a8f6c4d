import ScriptChart.Json.Compact
import ScriptChart.Project.Basic

/-!
# Reading fields and inputs

A field is written as a text, or as an array of a text and an id. An input is written as the id of
a block, as a primitive, or as an array that wraps either of them. A primitive is an array of a
code, a text, and for a message its id. Whatever else is written is taken as a text.

## Main definitions

* `FieldValue.ofValue`, `InputValue.ofValue`: a field and an input as they are written.
* `InputValue.ofPrimitive`: a primitive as it is written.
-/

namespace ScriptChart.Project

open ScriptChart.Json (Value)

/-- The text at a place in an array, or nothing where the array has ended. -/
def textAt (items : List Value) (place : Nat) : String :=
  match items[place]? with
  | some value => value.scalarText
  | none => ""

/-- The id at a place in an array. Only a string is an id. -/
def idAt? (items : List Value) (place : Nat) : Option String :=
  match items[place]? with
  | some (.string id) => some id
  | _ => none

/-- The code at the front of an array: a whole number of sixty-four bits with a sign, else zero. -/
def codeOf (items : List Value) : Int :=
  match items.head? with
  | some (.number (.int code)) => if code < 0x8000000000000000 then code else 0
  | _ => 0

/-- The code of a message. -/
def broadcastCode : Int := 11

/-- A field as it is written. -/
def FieldValue.ofValue : Value → FieldValue
  | .array items => ⟨textAt items 0, idAt? items 1⟩
  | other => ⟨other.scalarText, none⟩

/-- A primitive as it is written. -/
def InputValue.ofPrimitive (items : List Value) : InputValue :=
  if codeOf items = broadcastCode then .broadcast (textAt items 1) (idAt? items 2)
  else .literal (textAt items 1)

/-- An input as it is written. The codes from one to three wrap what the slot holds. -/
def InputValue.ofValue : Value → InputValue
  | .string id => .block id
  | .array items =>
    if 1 ≤ codeOf items ∧ codeOf items ≤ 3 then
      match (items[1]? : Option Value) with
      | some (.string id) => .block id
      | some (.array inner) => .nested (.ofPrimitive inner)
      | some other => .literal other.scalarText
      | none => .literal ""
    else .ofPrimitive items
  | other => .literal other.scalarText

end ScriptChart.Project
