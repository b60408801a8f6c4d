import ScriptChart.Flow.Node

/-!
# Looking upwards for the way on

Where control goes on after a construct without a block below it is found by looking at the blocks
above it. The ancestors of a block are its parent, the parent's parent and so on, up to the first
one that was met before or is missing. An ancestor that leads to the block we come from by its
own `next` is a predecessor in the same chain and has nothing to offer. Any other one has the block
we come from in one of its branches: it offers the node in which its branches end, when that is
already drawn, or else the block below it.

## Main definitions

* `ancestors`: the ancestors of a block.
* `offer?`: what an ancestor offers.
* `enclosing?`: what the first ancestor that offers anything offers.
-/

namespace ScriptChart.Flow

open ScriptChart.Project

/-- The nodes in which the constructs that were drawn so far end, by the ids of the constructs. -/
abbrev Ends := List (String × Node)

/-- At most a number of ancestors, beginning with the block that is named, other than the blocks
that were met before. -/
def ancestorsFrom (target : Target) :
    Nat → List String → Option String → List (String × Block)
  | 0, _, _ => []
  | _, _, none => []
  | count + 1, met, some id =>
    if met.contains id then []
    else
      match target.block? id with
      | none => []
      | some block => (id, block) :: ancestorsFrom target count (id :: met) block.parent

/-- The ancestors of a block, the nearest first. There are no more of them than blocks. -/
def ancestors (target : Target) (start : String) : List (String × Block) :=
  ancestorsFrom target target.blocks.size [start]
    ((target.block? start).bind fun block => block.parent)

/-- What an ancestor of `start` offers to the block below it on the way up, its `child`. -/
def offer? (target : Target) (ends : Ends) (start child : String) (ancestor : String × Block) :
    Option Node :=
  if ancestor.2.next = some child then none
  else
    -- only a construct has branches that end in a node of its own
    let recorded := if ancestor.2.control?.isSome then ends.lookup ancestor.1 else none
    recorded.or
      (((destination? target ancestor.2 .next).filter fun next => next != start).map Node.ofBlock)

/-- What the first ancestor that offers anything offers, coming up from `child`. -/
def firstOffer? (target : Target) (ends : Ends) (start : String) :
    String → List (String × Block) → Option Node
  | _, [] => none
  | child, ancestor :: above =>
    (offer? target ends start child ancestor).or (firstOffer? target ends start ancestor.1 above)

/-- Where control goes on after a construct, by its ancestors. -/
def enclosing? (target : Target) (ends : Ends) (start : String) : Option Node :=
  firstOffer? target ends start start (ancestors target start)

end ScriptChart.Flow
