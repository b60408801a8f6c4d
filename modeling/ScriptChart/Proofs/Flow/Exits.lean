import ScriptChart.Proofs.Flow.Script

/-!
# The edges of a script

The edges that leave a node of a script in a well-linked target follow from its block alone and
from the innermost construct around the block. A block that is no construct leads to the block
below it, and without one an event leads to a leaf and any other block to the end of the innermost
construct around it. A construct leads into its branches, or to its own end where a branch is
missing; from its end control goes back, in an endless loop, or else goes on as it does from a
block, with a leaf when there is no way on.

## Main definitions

* `leaving`: the steps that draw the edges that leave a node.
* `exits`: the edges that leave the nodes of a block.

## Main results

* `leaving_scriptSteps`: what leaves the nodes of a block, up to the last link that is followed.
* `leaving_scriptSteps_cut`: what leaves the nodes of a block at which a script is cut.
-/

namespace ScriptChart.Flow

open ScriptChart.Project

/-- The steps that draw the edges that leave a node. -/
def leaving (node : Node) (steps : List Step) : List Step :=
  (steps.filter fun step => step.source? = some node).map Step.decided

section Law

variable (target : Target) (id : String) (block : Block)

/-- Where control arrives in a branch: at its first block, or else at the end of the construct. -/
def arrival (link : Link) (join : Node) : Node :=
  ((destination? target block link).map Node.ofBlock).getD join

/-- The edge along which control goes on from the end of a construct: to the block below, or else
to the end of the innermost construct around it, or else to a leaf. -/
def onward (source : Node) (join : Option Node) : Step :=
  match destination? target block .next, join with
  | some next, _ => .edge source (.ofBlock next)
  | none, some place => .edge source place
  | none, none => .leaf source

/-- The edges that leave a block that is no construct. -/
def plainExits (join : Option Node) : List Step :=
  match destination? target block .next with
  | some next => [.edge (.ofBlock id) (.ofBlock next)]
  | none =>
    if block.isEvent then [.leaf (.ofBlock id)]
    else join.toList.map fun place => .edge (.ofBlock id) place

/-- The edges that leave a construct. -/
def constructExits : ControlKind → List Step
  | .forever =>
    [.edge (.ofBlock id) (arrival target block .substack ⟨id, .again⟩)]
  | .ifThen =>
    [.branch (.ofBlock id) (arrival target block .substack ⟨id, .conditionEnd⟩) .yes,
      .branch (.ofBlock id) ⟨id, .conditionEnd⟩ .no]
  | .ifElse =>
    [.branch (.ofBlock id) (arrival target block .substack ⟨id, .conditionEnd⟩) .yes,
      .branch (.ofBlock id) (arrival target block .substack2 ⟨id, .conditionEnd⟩) .no]
  | .repeatTimes =>
    [.branch (.ofBlock id) (arrival target block .substack ⟨id, .loopEnd⟩) .holds,
      .branch (.ofBlock id) ⟨id, .loopEnd⟩ .fails]
  | .repeatUntil =>
    [.branch (.ofBlock id) (arrival target block .substack ⟨id, .loopEnd⟩) .fails,
      .branch (.ofBlock id) ⟨id, .loopEnd⟩ .holds]

/-- The edges that leave the end of a construct: back to an endless loop, and onward from any other
construct. -/
def joinExits (join : Option Node) : ControlKind → List Step
  | .forever => [.edge ⟨id, .again⟩ (.ofBlock id)]
  | kind => [onward target block ⟨id, joinRole kind⟩ join]

/-- The edges that leave the nodes of a block. -/
def exits (join : Option Node) (role : Role) : List Step :=
  match block.control? with
  | none => if role = .block then plainExits target id block join else []
  | some kind =>
    if role = .block then constructExits target id block kind
    else if role = joinRole kind then joinExits target id block join kind
    else []

end Law

/-! ### Steps that leave a node -/

section Leaving

variable (node : Node)

theorem leaving_append (first second : List Step) :
    leaving node (first ++ second) = leaving node first ++ leaving node second := by
  simp [leaving]

theorem leaving_cons (step : Step) (steps : List Step) :
    leaving node (step :: steps) =
      if step.source? = some node then step.decided :: leaving node steps
      else leaving node steps := by
  simp only [leaving, List.filter_cons, decide_eq_true_eq]
  split <;> rfl

@[simp]
theorem leaving_nil : leaving node [] = [] := rfl

variable (target : Target) (id : String) (block : Block)

theorem leaving_danglingParts (link : Link) :
    leaving node ((danglingParts target id block link).flatMap Part.settled) = [] := by
  unfold danglingParts noticeDangling
  cases dangling? target block link <;>
    simp [Part.settled, leaving_cons, Step.source?, Step.ends?]

theorem leaving_linkParts (link : Link) (visits : Visits) (enter : Node → Step)
    (continuation : Option Node) (absent : List Part) :
    leaving node
        ((linkParts target id block link visits enter continuation absent).flatMap Part.settled) =
      match destination? target block link with
      | some first => leaving node [enter (.ofBlock first)]
      | none => leaving node (absent.flatMap Part.settled) := by
  unfold linkParts
  cases destination? target block link with
  | some first => rfl
  | none => simp [leaving_append, leaving_danglingParts]

theorem leaving_branchParts (visits : Visits) (link : Link) (answer : Answer) (join : Node) :
    leaving node ((branchParts target id block visits link answer join).flatMap Part.settled) =
      if .ofBlock id = node then [.branch (.ofBlock id) (arrival target block link join) answer]
      else [] := by
  rw [branchParts, leaving_linkParts, arrival]
  cases destination? target block link <;>
    simp [Part.settled, leaving_cons, Step.source?, Step.ends?, Step.decided]

theorem leaving_bodyParts (join : Node) :
    leaving node ((bodyParts target id block join).flatMap Part.settled) =
      if .ofBlock id = node then [.edge (.ofBlock id) (arrival target block .substack join)]
      else [] := by
  rw [bodyParts, leaving_linkParts, arrival]
  cases destination? target block .substack <;>
    simp [Part.settled, leaving_cons, Step.source?, Step.ends?, Step.decided]

theorem leaving_rejoinParts (join : Node) (continuation : Option Node) :
    leaving node ((rejoinParts target id block join continuation).flatMap Part.settled) =
      if join = node then [onward target block join continuation] else [] := by
  rw [rejoinParts, leaving_linkParts]
  unfold onward
  cases destination? target block .next <;> cases continuation <;>
    simp [Part.settled, leaving_cons, Step.source?, Step.ends?, Step.decided]

theorem leaving_plainParts (continuation : Option Node) :
    leaving node ((plainParts target id block continuation).flatMap Part.settled) =
      if .ofBlock id = node then plainExits target id block continuation else [] := by
  rw [plainParts, leaving_linkParts, plainExits]
  cases destination? target block .next with
  | some next => simp [leaving_cons, Step.source?, Step.ends?, Step.decided]
  | none =>
    by_cases event : block.isEvent = true
    · simp [event, Part.settled, leaving_cons, Step.source?, Step.ends?, Step.decided]
    · cases continuation <;>
        simp [event, Part.settled, leaving_cons, Step.source?, Step.ends?, Step.decided]

/-- What the plan of a block draws leaves the nodes of the block as the law says. -/
theorem leaving_plan (continuation : Option Node) (role : Role) :
    leaving ⟨id, role⟩ ((plan target id block continuation).flatMap Part.settled) =
      exits target id block continuation role := by
  unfold plan exits
  cases block.control? with
  | none => simp [leaving_plainParts, Node.ofBlock, eq_comm]
  | some kind =>
    -- the branches leave the block and the way on leaves the end, for each kind and each role
    cases kind <;> cases role <;>
      simp [constructParts, constructExits, joinExits, joinRole, loopAnswers, leaving_append,
        leaving_cons, leaving_branchParts, leaving_bodyParts, leaving_rejoinParts, Part.settled,
        Step.source?, Step.ends?, Step.decided, Node.ofBlock]

end Leaving

/-! ### The edges of a script -/

section

variable {target : Target} (linked : WellLinked target) {entry : String}
  (root : IsRoot target entry) {id : String} {count : Nat} {join : Option Node}
  (reached : Reached target entry none id count join)
include linked root reached

theorem leaving_perm_steps (within : count ≤ linkLimit) (role : Role) :
    (leaving ⟨id, role⟩ (scriptSteps target entry)).Perm
      (leaving ⟨id, role⟩ (Stop.steps target ⟨id, linkLimit - count, join⟩)) := by
  refine (filter_scriptSteps_perm linked root (fun step leaves => ?_) reached within).map _
  exact Step.owner_of_source? (of_decide_eq_true leaves)

/-- The edges of a script that leave the nodes of a block whose links are followed. -/
theorem leaving_scriptSteps {block : Block} (present : target.block? id = some block)
    (within : count < linkLimit) (role : Role) :
    (leaving ⟨id, role⟩ (scriptSteps target entry)).Perm
      (exits target id block join role) := by
  -- there is a link left, so the block is drawn with its plan
  obtain ⟨more, rest⟩ : ∃ more, linkLimit - count = more + 1 := ⟨linkLimit - count - 1, by omega⟩
  have drawn := leaving_perm_steps linked root reached (Nat.le_of_lt within) role
  rwa [rest, Stop.steps, present, leaving_cons, if_neg (by simp [Step.source?, Step.ends?]),
    leaving_plan] at drawn

/-- The edges of a script that leave the nodes of a block at which it is cut. -/
theorem leaving_scriptSteps_cut (last : count = linkLimit) (role : Role) :
    (leaving ⟨id, role⟩ (scriptSteps target entry)).Perm
      (if role = .block then [.cut id] else []) := by
  obtain ⟨block, present⟩ := exists_block_of_hasBlock (reached.hasBlock root.hasBlock)
  have drawn := leaving_perm_steps linked root reached (Nat.le_of_eq last) role
  rw [last, Nat.sub_self, Stop.steps, present] at drawn
  cases role <;>
    simpa [leaving_cons, Step.source?, Step.ends?, Step.decided, Node.ofBlock] using drawn

end

end ScriptChart.Flow
