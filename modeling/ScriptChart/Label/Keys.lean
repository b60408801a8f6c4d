import ScriptChart.Project.Basic

/-!
# The order of inputs

The inputs of a block are shown in an order that fits its phrase. Operators have a fixed order for
the names of their operands, with all other names sorted after them. Statements keep the order in
which their inputs are written, except for the two that take coordinates.

## Main definitions

* `operatorKeys`, `statementKeys`: the input names of a block in the order in which they are shown.
-/

namespace ScriptChart.Label

open ScriptChart.Project

/-- The names of operands in the order in which they are shown. -/
def operandOrder : List String :=
  ["OPERAND1", "OPERAND2", "OPERAND3", "NUM1", "NUM2", "NUM3", "STRING1", "STRING2", "FROM", "TO",
   "A", "B"]

/-- Puts a name into a sorted list of names. -/
def insertSorted (name : String) : List String → List String
  | [] => [name]
  | other :: rest => if name < other then name :: other :: rest else other :: insertSorted name rest

/-- Names in the order of their code points. -/
def sorted (names : List String) : List String := names.foldr insertSorted []

/-- The names in front that are present, followed by the other names in an order of their own. -/
def preferring (front present : List String) (arrange : List String → List String) :
    List String :=
  front.filter (present.contains ·) ++ arrange (present.filter fun name => !front.contains name)

/-- The input names of an operator in the order in which they are shown. -/
def operatorKeys (block : Block) : List String :=
  preferring operandOrder block.inputs.names sorted

/-- The input names that come first in a statement. -/
def leadingKeys (opcode : String) : List String :=
  if opcode = "motion_gotoxy" then ["X", "Y"]
  else if opcode = "motion_glidesecstoxy" then ["SECS", "X", "Y"]
  else []

/-- The input names of a statement in the order in which they are shown. -/
def statementKeys (block : Block) : List String :=
  preferring (leadingKeys block.opcode) block.inputs.names id

end ScriptChart.Label
