import ScriptChart.Label.Reference
import ScriptChart.Text.Blank

/-!
# The label of a block

What stands on the node of a block: its phrase with the block's fields and inputs filled in. Loops
and conditionals that wait for a condition show it in their phrase.

## Main definitions

* `Resolver.parameters`, `Resolver.statement`: the parameters and the label of a plain block.
* `Resolver.condition`: the condition of a loop or conditional.
* `Resolver.nodeLabel`: the label of any block.
-/

namespace ScriptChart.Label

open ScriptChart.Phrase ScriptChart.Project

namespace Resolver

variable (r : Resolver)

/-- The parameters of a statement: its fields, then its inputs other than branches, each of them
with a trail of its own. -/
def parameters (block : Block) : Report (List String) := do
  let fields ← r.fields block
  -- branches are drawn and not shown
  let keys := (statementKeys block).filter fun key => !(key == substack || key == substack2)
  let inputs ← (keys.filterMap block.inputs.get?).mapM fun value => (r.input value).freshly
  return fields ++ inputs

/-- A statement without its phrase: its action, followed by its parameters. -/
def bareStatement (opcode : String) (params : List String) : String :=
  if params.isEmpty then Phrase.action opcode
  else Phrase.action opcode ++ ": " ++ ", ".intercalate params

/-- The label of a statement: the wording of a procedure, or the block's phrase. -/
def statement (block : Block) : Report String := do
  match ← (r.procedure? block).freshly with
  | some label => return label
  | none =>
    let params ← r.parameters block
    return (r.dictionary.render? block.opcode params).getD (bareStatement block.opcode params)

/-- The text of a block's condition, empty when there is none. -/
def condition (block : Block) : Report String :=
  match block.inputs.get? "CONDITION" with
  | some value => (r.input value).freshly
  | none => return ""

/-- The phrase that shows a block's condition. Conditionals always have one. -/
def conditionPhrase? (block : Block) : Option String :=
  match block.control? with
  | some .ifThen | some .ifElse =>
    some ((r.dictionary.phrase? block.opcode).getD (r.dictionary.synthetic .bareCondition))
  | some .repeatUntil => r.dictionary.phrase? block.opcode
  | _ => none

/-- The phrase of a condition with the condition filled in. Without a condition the placeholder
and the gap that it leaves are dropped. -/
def fillCondition (phrase condition : String) : String :=
  if condition.isEmpty then Text.singleSpaced (substitute phrase [""])
  else substitute phrase [condition]

/-- The label of a block. -/
def nodeLabel (block : Block) : Report String :=
  match r.conditionPhrase? block with
  | some phrase => fillCondition phrase <$> r.condition block
  | none => r.statement block

end Resolver

end ScriptChart.Label
