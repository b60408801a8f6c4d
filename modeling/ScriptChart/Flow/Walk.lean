import ScriptChart.Flow.Ancestors

/-!
# Walking a script

A script is walked from its entry along the links of its blocks, and every block is drawn when it
is first reached. A construct is drawn together with its branches and the node in which they end;
the blocks of a branch are walked with that node as their continuation, the place where control
goes on when the branch has ended.

A block is drawn once along a walk. The body of a loop is walked on a copy of what was visited, so
a body never keeps the flow outside it from drawing a block. A walk that has followed too many
links is cut with a sentinel.

The walk only tells which nodes and edges there are, in which order. Names and labels come later.

## Main definitions

* `Step`: one thing that is drawn or noticed on a walk.
* `Progress`: which blocks were visited, and in which nodes the constructs end.
* `walk`: the steps of a walk from a block, and the progress after it.
* `scriptSteps`: the steps of a script.
-/

namespace ScriptChart.Flow

open ScriptChart.Project

/-- The answers that lead into the branches of a construct. -/
inductive Answer where
  | yes
  | no
  | holds
  | fails
deriving DecidableEq, Repr

/-- One thing that is drawn or noticed on a walk. -/
inductive Step where
  /-- The node of a block, from which a number of links may still be followed. -/
  | block (id : String) (links : Nat)
  /-- The node in which a construct ends. -/
  | join (node : Node)
  /-- An edge. -/
  | edge (source destination : Node)
  /-- An edge for an answer. -/
  | branch (source destination : Node) (answer : Answer)
  /-- The edge to the leaf after a node. -/
  | leaf (source : Node)
  /-- The way on from the node in which a construct ends: by its ancestors, or else by the
  continuation of the walk, or else to a leaf. -/
  | rejoin (source : Node) (enclosing continuation : Option Node)
  /-- The edge to the sentinel after a block at which the walk is cut. -/
  | cut (id : String)
  /-- A link of a block that names a block which is not there. -/
  | missing (owner : String) (link : Link) (id : String)
deriving DecidableEq, Repr

/-- What is known at a point of a walk. -/
structure Progress where
  visited : List String := []
  ends : Ends := []
deriving DecidableEq, Repr

namespace Progress

/-- The progress before the first block. -/
def start : Progress := {}

/-- Marks a block as visited. -/
def visit (progress : Progress) (id : String) : Progress :=
  { progress with visited := id :: progress.visited }

/-- Records the node in which a construct ends. -/
def record (progress : Progress) (node : Node) : Progress :=
  { progress with ends := (node.owner, node) :: progress.ends }

end Progress

/-- The steps of a part of a walk and the progress after it. -/
structure Outcome where
  steps : List Step
  progress : Progress
deriving DecidableEq, Repr

namespace Outcome

/-- Steps that change no progress. -/
def emit (steps : List Step) (progress : Progress) : Outcome := ⟨steps, progress⟩

/-- The same with more steps in front. -/
def after (steps : List Step) (outcome : Outcome) : Outcome :=
  { outcome with steps := steps ++ outcome.steps }

/-- One part of a walk, and then the next from the progress after it. -/
def andThen (outcome : Outcome) (next : Progress → Outcome) : Outcome :=
  (next outcome.progress).after outcome.steps

/-- Forgets what was visited since a point of the walk. The ends of constructs stay known. -/
def forgetVisits (outcome : Outcome) (since : Progress) : Outcome :=
  { outcome with progress := { outcome.progress with visited := since.visited } }

end Outcome

/-- Walks from a block with a continuation. -/
abbrev Walker := String → Option Node → Progress → Outcome

/-- Whether what a branch visits stays visited for the flow after it. -/
inductive Visits where
  | shared
  | forked
deriving DecidableEq, Repr

/-- Notices a link that names a block which is not there. -/
def noticeDangling (target : Target) (id : String) (block : Block) (link : Link) : List Step :=
  (dangling? target block link).toList.map fun missing => .missing id link missing

section Expansion

variable (target : Target) (walker : Walker) (id : String) (block : Block)

/-- The part of a walk within a branch. -/
def walkBranch (visits : Visits) (first : String) (join : Node) (progress : Progress) : Outcome :=
  let outcome := walker first (some join) progress
  match visits with
  | .shared => outcome
  | .forked => outcome.forgetVisits progress

/-- Follows a branch that is entered for an answer. Without a branch the answer leads to the end of
the construct at once. -/
def expandBranch (visits : Visits) (link : Link) (answer : Answer) (join : Node)
    (progress : Progress) : Outcome :=
  match destination? target block link with
  | some first =>
    (walkBranch walker visits first join progress).after
      [.branch (.ofBlock id) (.ofBlock first) answer]
  | none =>
    .emit (noticeDangling target id block link ++ [.branch (.ofBlock id) join answer]) progress

/-- Goes on from the node in which a construct ends. -/
def expandRejoin (join : Node) (continuation : Option Node) (progress : Progress) : Outcome :=
  match destination? target block .next with
  | some next => (walker next continuation progress).after [.edge join (.ofBlock next)]
  | none =>
    .emit
      (noticeDangling target id block .next ++
        [.rejoin join (enclosing? target progress.ends id) continuation])
      progress

/-- A block that is no construct: control goes on to the block below it, or ends after an event,
or goes on to the continuation. -/
def expandPlain (continuation : Option Node) (progress : Progress) : Outcome :=
  match destination? target block .next with
  | some next =>
    (walker next continuation progress).after [.edge (.ofBlock id) (.ofBlock next)]
  | none =>
    .emit
      (noticeDangling target id block .next ++
        (if block.isEvent then [.leaf (.ofBlock id)]
        else continuation.toList.map fun join => .edge (.ofBlock id) join))
      progress

/-- The body of an endless loop, or the edge that stands for an empty one. -/
def expandBody (join : Node) (progress : Progress) : Outcome :=
  match destination? target block .substack with
  | some first =>
    (walkBranch walker .forked first join progress).after
      [.edge (.ofBlock id) (.ofBlock first)]
  | none =>
    .emit (noticeDangling target id block .substack ++ [.edge (.ofBlock id) join]) progress

/-- An endless loop: its body ends in a node from which control goes back. -/
def expandForever (progress : Progress) : Outcome :=
  let join : Node := ⟨id, joinRole .forever⟩
  -- the end is recorded before the body, whose constructs may look it up
  ((expandBody target walker id block join (progress.record join)).after [.join join]).andThen
    (.emit [.edge join (.ofBlock id)])

/-- The branch of a conditional for the answer no. Only one of the two kinds has it. -/
def expandOtherwise (kind : ControlKind) (join : Node) (progress : Progress) : Outcome :=
  match kind with
  | .ifElse => expandBranch target walker id block .shared .substack2 .no join progress
  | _ => .emit [.branch (.ofBlock id) join .no] progress

/-- A conditional: both answers lead to its end. -/
def expandConditional (kind : ControlKind) (continuation : Option Node) (progress : Progress) :
    Outcome :=
  let join : Node := ⟨id, joinRole kind⟩
  (((expandBranch target walker id block .shared .substack .yes join (progress.record join)).after
    [.join join]).andThen (expandOtherwise target walker id block kind join)).andThen
      (expandRejoin target walker id block join continuation)

/-- The answers for which a loop is entered and left. A loop that waits for its condition goes on
while the condition fails. -/
def loopAnswers : ControlKind → Answer × Answer
  | .repeatUntil => (.fails, .holds)
  | _ => (.holds, .fails)

/-- A loop that ends: one answer leads into its body and the other one to its end. -/
def expandLoop (kind : ControlKind) (continuation : Option Node) (progress : Progress) :
    Outcome :=
  let join : Node := ⟨id, joinRole kind⟩
  let answers := loopAnswers kind
  -- the edge for leaving stands between the body and what follows the loop
  (((expandBranch target walker id block .forked .substack answers.1 join
    (progress.record join)).after [.join join]).andThen
      (.emit [.branch (.ofBlock id) join answers.2])).andThen
        (expandRejoin target walker id block join continuation)

/-- What follows the node of a block. -/
def expand (continuation : Option Node) (progress : Progress) : Outcome :=
  match block.control? with
  | none => expandPlain target walker id block continuation progress
  | some .forever => expandForever target walker id block progress
  | some .ifThen => expandConditional target walker id block .ifThen continuation progress
  | some .ifElse => expandConditional target walker id block .ifElse continuation progress
  | some .repeatTimes => expandLoop target walker id block .repeatTimes continuation progress
  | some .repeatUntil => expandLoop target walker id block .repeatUntil continuation progress

end Expansion

/-- Walks from a block along no more than a number of links. Blocks that were visited or are not
there are passed over. -/
def walk (target : Target) : Nat → Walker
  | links, id, continuation, progress =>
    if progress.visited.contains id then .emit [] progress
    else
      -- a link that leads nowhere was noticed where it starts
      match target.block? id with
      | none => .emit [] progress
      | some block =>
        match links with
        | 0 => .emit [.block id 0, .cut id] (progress.visit id)
        | more + 1 =>
          (expand target (walk target more) id block continuation (progress.visit id)).after
            [.block id (more + 1)]

/-- How many links a script is followed before it is cut. -/
def linkLimit : Nat := 501

/-- The steps of the script that begins with a block. -/
def scriptSteps (target : Target) (entry : String) : List Step :=
  (walk target linkLimit entry none .start).steps

end ScriptChart.Flow
