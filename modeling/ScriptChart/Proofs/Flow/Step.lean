import ScriptChart.Proofs.Flow.Plan

/-!
# What a step draws

Every step of a walk belongs to a block and says which node it declares and which edge it draws.
The steps that stand in the plan of a block belong to this block, and what they declare are the
block's nodes other than its own and its sentinel.

## Main definitions

* `Step.owner`: the block that a step belongs to.
* `Step.declared?`, `Step.ends?`: the node that a step declares, and the ends of its edge.
* `Step.decided`: a step in which the way on from a construct is decided.

## Main results

* `isBeside_plan`: what the plan of a block draws.
-/

namespace ScriptChart.Flow

open ScriptChart.Project

namespace Step

/-- The block that a step belongs to. -/
def owner : Step → String
  | .block id _ => id
  | .join node => node.owner
  | .edge source _ => source.owner
  | .branch source _ _ => source.owner
  | .leaf source => source.owner
  | .rejoin source _ _ => source.owner
  | .cut id => id
  | .missing id _ _ => id

/-- The ends of the edge that a step draws. -/
def ends? : Step → Option (Node × Node)
  | .block _ _ | .join _ | .missing _ _ _ => none
  | .edge source destination => some (source, destination)
  | .branch source destination _ => some (source, destination)
  | .leaf source => some (source, source.leaf)
  | .rejoin source enclosing continuation =>
    some (source, (enclosing.or continuation).getD source.leaf)
  | .cut id => some (.ofBlock id, ⟨id, .runaway⟩)

/-- The node that the edge of a step leaves. -/
def source? (step : Step) : Option Node := step.ends?.map Prod.fst

/-- The node that a step declares with its shape and label. -/
def declared? : Step → Option Node
  | .block id _ => some (.ofBlock id)
  | .join node => some node
  | .edge _ _ | .branch _ _ _ | .missing _ _ _ => none
  | .leaf source => some source.leaf
  | .rejoin source enclosing continuation =>
    if (enclosing.or continuation).isSome then none else some source.leaf
  | .cut id => some ⟨id, .runaway⟩

/-- A step in which the way on from a construct is decided. -/
def decided : Step → Step
  | .rejoin source enclosing continuation =>
    match enclosing.or continuation with
    | some onward => .edge source onward
    | none => .leaf source
  | step => step

theorem owner_of_ends? {step : Step} {source destination : Node}
    (draws : step.ends? = some (source, destination)) : step.owner = source.owner := by
  cases step <;> simp only [ends?, Option.some.injEq, Prod.mk.injEq, reduceCtorEq] at draws <;>
    simp [owner, ← draws.1, Node.ofBlock]

theorem owner_of_source? {step : Step} {node : Node} (leaves : step.source? = some node) :
    step.owner = node.owner := by
  obtain ⟨⟨source, destination⟩, draws, rfl⟩ := Option.map_eq_some_iff.mp leaves
  exact owner_of_ends? draws

theorem owner_of_declared? {step : Step} {node : Node}
    (declares : step.declared? = some node) : step.owner = node.owner := by
  cases step with
  | rejoin source enclosing continuation =>
    simp only [declared?] at declares
    split at declares
    · simp at declares
    · obtain rfl := Option.some.inj declares
      rfl
  | edge source destination | branch source destination answer | missing id link name =>
    simp [declared?] at declares
  | block id links | join other | leaf source | cut id =>
    obtain rfl := Option.some.inj declares
    rfl

theorem declared?_decided (step : Step) : step.decided.declared? = step.declared? := by
  cases step with
  | rejoin source enclosing continuation =>
    cases way : enclosing.or continuation <;> simp [decided, declared?, way]
  | _ => rfl

theorem ends?_decided (step : Step) : step.decided.ends? = step.ends? := by
  cases step with
  | rejoin source enclosing continuation =>
    cases way : enclosing.or continuation <;> simp [decided, ends?, way]
  | _ => rfl

end Step

/-! ### The steps of a block -/

/-- Whether a step belongs to a block and draws neither a block nor a sentinel. -/
def Step.IsBeside (id : String) (step : Step) : Prop :=
  step.owner = id ∧ ∀ node ∈ step.declared?, node.role ≠ .block ∧ node.role ≠ .runaway

namespace Step

variable (id : String)

theorem isBeside_edge (place : Node) : IsBeside id (.edge (.ofBlock id) place) :=
  ⟨rfl, by simp [declared?]⟩

theorem isBeside_branch (place : Node) (answer : Answer) :
    IsBeside id (.branch (.ofBlock id) place answer) :=
  ⟨rfl, by simp [declared?]⟩

theorem isBeside_leaf : IsBeside id (.leaf (.ofBlock id)) :=
  ⟨rfl, by simp [declared?, Node.leaf, Node.ofBlock, Role.leaf]⟩

theorem isBeside_join (kind : ControlKind) : IsBeside id (.join ⟨id, joinRole kind⟩) :=
  ⟨rfl, by cases kind <;> simp [declared?, joinRole]⟩

theorem isBeside_missing (link : Link) (name : String) : IsBeside id (.missing id link name) :=
  ⟨rfl, by simp [declared?]⟩

theorem isBeside_edge_join (role : Role) (place : Node) : IsBeside id (.edge ⟨id, role⟩ place) :=
  ⟨rfl, by simp [declared?]⟩

theorem isBeside_rejoin (role : Role) (enclosing continuation : Option Node) :
    IsBeside id (.rejoin ⟨id, role⟩ enclosing continuation) := by
  refine ⟨rfl, ?_⟩
  cases enclosing <;> cases continuation <;> cases role <;>
    simp [declared?, Node.leaf, Role.leaf]

end Step

section Beside

variable {target : Target} {id : String} {block : Block} {continuation : Option Node}

theorem isBeside_of_planned {part : Part} (planned : Planned target id block continuation part) :
    ∀ step ∈ part.settled, step.IsBeside id := by
  cases planned with
  | missing => simpa [Part.settled] using Step.isBeside_missing id _ _
  | edge place => simpa [Part.settled] using Step.isBeside_edge id place
  | branch place answer => simpa [Part.settled] using Step.isBeside_branch id place answer
  | leaf => simpa [Part.settled] using Step.isBeside_leaf id
  | back | onward => simpa [Part.settled] using Step.isBeside_edge_join id _ _
  | rejoin => simpa [Part.settled] using Step.isBeside_rejoin id _ _ _
  | chain | enter => simp [Part.settled]

variable (target id block continuation)

/-- The steps of a block's plan belong to the block, and none of them draws a block or a
sentinel. -/
theorem isBeside_plan :
    ∀ step ∈ (plan target id block continuation).flatMap Part.settled, step.IsBeside id := by
  intro step inside
  obtain ⟨part, planned, inside⟩ := List.mem_flatMap.mp inside
  obtain planned | ⟨kind, -, rfl⟩ := planned_of_mem_plan planned
  · exact isBeside_of_planned planned step inside
  · rw [List.mem_singleton.mp inside]
    exact Step.isBeside_join id kind

end Beside

end ScriptChart.Flow
