import ScriptChart.Diagram.Label
import ScriptChart.Text.Search

/-!
# Diagram statements

A diagram is a header that gives the direction, followed by statements, one a line: a node with
its shape and label, an edge, an edge with a label, or an edge that declares the node it ends in.

## Main definitions

* `Direction`, `Shape`, `Statement`: the vocabulary of a diagram.
* `Statement.line`: a statement as a line of text, its label sanitized.
* `render`: the text of a diagram.
-/

namespace ScriptChart.Diagram

/-- Which way a diagram is laid out. -/
inductive Direction where
  | topDown
  | leftRight
deriving DecidableEq, Repr, Inhabited

/-- The word that stands for a direction. -/
def Direction.keyword : Direction → String
  | .topDown => "TD"
  | .leftRight => "LR"

/-- The outline of a node. -/
inductive Shape where
  | rect
  | round
  | diamond
  | stadium
deriving DecidableEq, Repr, Inhabited

namespace Shape

/-- What stands before and after the label of a node. -/
def delimiters : Shape → String × String
  | .rect => ("[", "]")
  | .round => ("(", ")")
  | .diamond => ("\x7b", "\x7d")
  | .stadium => ("([", "])")

/-- A label between the delimiters of a shape. -/
def wrap (shape : Shape) (label : String) : String :=
  shape.delimiters.1 ++ sanitize label ++ shape.delimiters.2

/-- Conditionals and operators are drawn as diamonds and all other blocks rounded. -/
def ofOpcode (opcode : String) : Shape :=
  if Text.hasPiece "control_if" opcode || Text.hasPiece "operator" opcode then .diamond else .round

end Shape

/-- One statement of a diagram. Node ids are written as they are. -/
inductive Statement where
  /-- A node on a line of its own. -/
  | node (id : String) (shape : Shape) (label : String)
  /-- An edge between two nodes. -/
  | edge (source destination : String)
  /-- An edge with a label on it. -/
  | labelledEdge (source destination : String) (label : String)
  /-- An edge together with the node it ends in. -/
  | edgeToNode (source destination : String) (shape : Shape) (label : String)
deriving DecidableEq, Repr

namespace Statement

/-- The statement without the indentation and the end of its line. -/
def body : Statement → String
  | .node id shape label => id ++ shape.wrap label
  | .edge source destination => source ++ " --> " ++ destination
  | .labelledEdge source destination label =>
    source ++ " -->|" ++ sanitize label ++ "| " ++ destination
  | .edgeToNode source destination shape label =>
    source ++ " --> " ++ destination ++ shape.wrap label

/-- The statement as a line of text. -/
def line (statement : Statement) : String := "    " ++ statement.body ++ "\n"

/-- The node that a statement declares with its shape and label. -/
def declared? : Statement → Option String
  | .node id _ _ => some id
  | .edgeToNode _ destination _ _ => some destination
  | .edge _ _ => none
  | .labelledEdge _ _ _ => none

/-- The end points of the edge that a statement draws. -/
def edge? : Statement → Option (String × String)
  | .node _ _ _ => none
  | .edge source destination => some (source, destination)
  | .labelledEdge source destination _ => some (source, destination)
  | .edgeToNode source destination _ _ => some (source, destination)

end Statement

/-- The first line of a diagram. -/
def header (direction : Direction) : String := "flowchart " ++ direction.keyword ++ "\n"

/-- The text of a diagram: the header and one line for each statement. -/
def render (direction : Direction) (statements : List Statement) : String :=
  header direction ++ String.join (statements.map Statement.line)

end ScriptChart.Diagram
