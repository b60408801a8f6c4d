import ScriptChart.OrderedMap
import ScriptChart.Text.Search

/-!
# Programs

A program consists of targets: the stage and the sprites. A target holds blocks under their ids,
and a script is a chain of blocks that refer to each other by id: to the block below, to the block
above, and to the first block of each branch. Nothing ensures that these references name a block
or that they agree with each other.

## Main definitions

* `Program`, `Target`, `Block`: the parts of a program.
* `InputValue`, `FieldValue`, `Mutation`: what a block holds.
* `ControlKind`: the blocks that loop or branch.
* `Target.entryPoints`: the blocks that scripts begin with.
-/

namespace ScriptChart.Project

/-- A value chosen on a block, and the id of the thing that it names. -/
structure FieldValue where
  display : String
  id : Option String
deriving DecidableEq, Repr, Inhabited

/-- What an input slot of a block holds. -/
inductive InputValue where
  /-- A text. -/
  | literal (text : String)
  /-- A value that was typed into the slot. -/
  | nested (inner : InputValue)
  /-- The id of another block. -/
  | block (id : String)
  /-- A message, by the name it was given and its id. -/
  | broadcast (name : String) (id : Option String)
deriving DecidableEq, Repr, Inhabited

/-- The custom procedure that a block calls: its wording, and the ids of its arguments as a text
that lists them. -/
structure Mutation where
  proccode : Option String
  argumentids : Option String
deriving DecidableEq, Repr, Inhabited

/-- The blocks that loop or branch. -/
inductive ControlKind where
  | forever
  | ifThen
  | ifElse
  | repeatTimes
  | repeatUntil
deriving DecidableEq, Repr

/-- The kind of an opcode, if its block loops or branches. -/
def ControlKind.ofOpcode? (opcode : String) : Option ControlKind :=
  if opcode = "control_forever" then some .forever
  else if opcode = "control_if" then some .ifThen
  else if opcode = "control_if_else" then some .ifElse
  else if opcode = "control_repeat" then some .repeatTimes
  else if opcode = "control_repeat_until" then some .repeatUntil
  else none

/-- A block. -/
structure Block where
  opcode : String := ""
  next : Option String := none
  parent : Option String := none
  topLevel : Bool := false
  fields : OrderedMap FieldValue := ∅
  inputs : OrderedMap InputValue := ∅
  mutation : Option Mutation := none
deriving Repr

/-- The input that holds a construct's branch, or the first branch of two. -/
def substack : String := "SUBSTACK"

/-- The input that holds the second branch. -/
def substack2 : String := "SUBSTACK2"

namespace Block

/-- The kind of the block, if it loops or branches. -/
def control? (block : Block) : Option ControlKind :=
  ControlKind.ofOpcode? block.opcode

/-- Whether the block starts or sends an event. -/
def isEvent (block : Block) : Bool := Text.beginsWith "event_" block.opcode

/-- The block that a branch begins with. Only a reference to a block makes a branch. -/
def branch? (block : Block) (name : String) : Option String :=
  match block.inputs.get? name with
  | some (.block id) => some id
  | _ => none

end Block

/-- The stage or a sprite. -/
structure Target where
  name : String := ""
  isStage : Bool := false
  blocks : OrderedMap Block := ∅
  broadcasts : OrderedMap String := ∅
deriving Repr

namespace Target

/-- The block with an id. -/
def block? (target : Target) (id : String) : Option Block := target.blocks.get? id

/-- Whether there is a block with an id. -/
def hasBlock (target : Target) (id : String) : Bool := target.blocks.contains id

/-- The blocks that scripts begin with, in their order: those at top level without a parent. -/
def entryPoints (target : Target) : List String :=
  (target.blocks.entries.filter fun entry => entry.2.topLevel && entry.2.parent.isNone).map
    Prod.fst

end Target

/-- A program. -/
structure Program where
  targets : List Target := []
deriving Repr

end ScriptChart.Project
