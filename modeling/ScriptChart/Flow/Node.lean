import ScriptChart.Project.Basic

/-!
# Nodes and links

A script is drawn with one node for each of its blocks and a few nodes of its own: the node where
the branches of a construct come together again, the leaf where control ends, and the sentinel
where a script that goes on for too long is cut. Each of them belongs to a block.

Control goes on from a block along its links: to the block below it, and for a construct to the
first blocks of its branches. A link may name a block that is not there; such a link is dangling
and leads nowhere.

## Main definitions

* `Role`, `Node`: the nodes of a script, told apart by block and role.
* `Link`, `destination?`, `dangling?`: where a block's links lead.
* `joinRole`: how the node after a construct is called.
-/

namespace ScriptChart.Flow

open ScriptChart.Project

/-- What a node of a script stands for. -/
inductive Role where
  /-- The block itself. -/
  | block
  /-- The end of the body of an endless loop, from which control goes back. -/
  | again
  /-- The end of a conditional. -/
  | conditionEnd
  /-- The end of a loop that ends. -/
  | loopEnd
  /-- The sentinel of a script that is cut at the block. -/
  | runaway
  /-- The end of control after the block. -/
  | blockLeaf
  /-- The end of control after a conditional. -/
  | conditionLeaf
  /-- The end of control after a loop. -/
  | loopLeaf
deriving DecidableEq, Repr

namespace Role

/-- What distinguishes the ids of the nodes that belong to one block. -/
def suffix : Role → String
  | .block => ""
  | .again => "_continue"
  | .conditionEnd => "_cond_end"
  | .loopEnd => "_loop_end"
  | .runaway => "_loop"
  | .blockLeaf => "_end"
  | .conditionLeaf => "_cond_end_end"
  | .loopLeaf => "_loop_end_end"

/-- The leaf after a block, a conditional or a loop. -/
def leaf : Role → Role
  | .conditionEnd => .conditionLeaf
  | .loopEnd => .loopLeaf
  | _ => .blockLeaf

end Role

/-- The role of the node in which the body or the branches of a construct end. -/
def joinRole : ControlKind → Role
  | .forever => .again
  | .ifThen | .ifElse => .conditionEnd
  | .repeatTimes | .repeatUntil => .loopEnd

/-- A node of a script. -/
@[ext]
structure Node where
  owner : String
  role : Role
deriving DecidableEq, Repr

namespace Node

/-- The node of a block itself. -/
def ofBlock (id : String) : Node := ⟨id, .block⟩

/-- The leaf after a node. -/
def leaf (node : Node) : Node := ⟨node.owner, node.role.leaf⟩

end Node

/-- The places of a block that name where control goes on. -/
inductive Link where
  | next
  | substack
  | substack2
deriving DecidableEq, Repr

/-- The id that a block names in a link. -/
def named? (block : Block) : Link → Option String
  | .next => block.next
  | .substack => block.branch? Project.substack
  | .substack2 => block.branch? Project.substack2

/-- The block that a link leads to. -/
def destination? (target : Target) (block : Block) (link : Link) : Option String :=
  (named? block link).filter target.hasBlock

/-- The id that a dangling link names. -/
def dangling? (target : Target) (block : Block) (link : Link) : Option String :=
  (named? block link).filter fun id => !target.hasBlock id

/-- The links along which control goes on from a block. An endless loop is never left. -/
def followedLinks (block : Block) : List Link :=
  match block.control? with
  | none => [.next]
  | some .forever => [.substack]
  | some .ifElse => [.substack, .substack2, .next]
  | some _ => [.substack, .next]

theorem hasBlock_of_destination? {target : Target} {block : Block} {link : Link} {id : String}
    (leads : destination? target block link = some id) : target.hasBlock id = true := by
  simp only [destination?, Option.filter_eq_some_iff] at leads
  exact leads.2

end ScriptChart.Flow
