/-!
# The wording of a custom procedure

A custom procedure is named by its wording, in which the slots of its arguments stand as `%s`,
`%b` or `%n`.

## Main definitions

* `Part`, `cutWording`: a wording as plain characters and slots.
-/

namespace ScriptChart.Phrase

/-- A piece of a wording. -/
inductive Part where
  /-- A character that stands for itself. -/
  | plain (c : Char)
  /-- The slot of an argument, with the letter that tells its kind. -/
  | slot (kind : Char)
deriving DecidableEq, Repr

/-- Whether a letter after a percent sign makes a slot. -/
def isSlotKind (c : Char) : Bool := c == 's' || c == 'b' || c == 'n'

/-- The parts of a wording, from left to right. -/
def cutWording : List Char → List Part
  | '%' :: kind :: rest =>
    if isSlotKind kind then .slot kind :: cutWording rest
    else .plain '%' :: cutWording (kind :: rest)
  | c :: rest => .plain c :: cutWording rest
  | [] => []

end ScriptChart.Phrase
