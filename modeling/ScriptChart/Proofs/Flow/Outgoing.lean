import ScriptChart.Proofs.Flow.Declared

/-!
# Nodes and outgoing edges

Control goes on from every node that a script declares, whatever the links of its target are. The
nodes without an outgoing edge are the leaves and the sentinels, which are drawn for this purpose,
and blocks that are no constructs and no events, from which no link leads on, where a walk comes to
them outside all constructs. The end of the body of an endless loop always leads back to the loop.

## Main definitions

* `IsLeaf`, `IsSentinel`: the nodes that are drawn where control ends or a script is cut.
* `EndsOpen`: a walk ends at a block outside all constructs.

## Main results

* `exists_drawn_of_isDeclared`: which nodes have outgoing edges.
* `drawn_back_of_isDeclared`: the end of the body of an endless loop leads back.
-/

namespace ScriptChart.Flow

open ScriptChart.Project

/-- Some step draws a node as the leaf after another node. -/
def IsLeaf (steps : List Step) (source node : Node) : Prop :=
  ∃ step ∈ steps, step.decided = .leaf source ∧ node = source.leaf

/-- Some step draws a node as the sentinel of a script that is cut at a block. -/
def IsSentinel (steps : List Step) (id : String) (node : Node) : Prop :=
  .cut id ∈ steps ∧ node = ⟨id, .runaway⟩

/-- A walk ends at a block: it comes to the block without a continuation, outside all constructs,
and the block is neither a construct nor an event and leads nowhere. -/
structure EndsOpen (target : Target) (entry id : String) : Prop where
  come : ∃ call block, Call.Made target (.ofEntry entry) call ∧ call.Draws target block ∧
    call.id = id ∧ call.continuation = none ∧ block.control? = none ∧ block.isEvent = false ∧
      destination? target block .next = none
  outside : ∃ count, Reached target entry none id count none

/-- What is walked from within a construct is reached within this construct. -/
theorem Call.Made.exists_reached {target : Target} {entry : String} {call : Call}
    (made : Call.Made target (.ofEntry entry) call) :
    ∃ count, Reached target entry none call.id count call.continuation := by
  induction made with
  | refl => exact ⟨0, .start⟩
  | @tail before after _ makes ih =>
    obtain ⟨count, reached⟩ := ih
    obtain ⟨left, visits, meets⟩ := makes
    obtain ⟨block, more, draws, -, planned⟩ := meets.mem_plan
    obtain ⟨link, followed, leads, along⟩ := exists_link_of_walk_mem_plan planned
    exact ⟨count + 1, along ▸ .follow reached draws.present followed leads⟩

/-! ### The law of exits leaves no node out -/

section

variable {target : Target} {id : String} {block : Block} {continuation : Option Node}

theorem exits_block_ne_nil_of_control? {kind : ControlKind} (control : block.control? = some kind) :
    exits target id block continuation .block ≠ [] := by
  cases kind <;> simp [exits, control, constructExits]

theorem exits_joinRole_ne_nil {kind : ControlKind} (control : block.control? = some kind) :
    exits target id block continuation (joinRole kind) ≠ [] := by
  cases kind <;> simp [exits, control, joinExits, joinRole]

/-- Only a block that is neither a construct nor an event, leads nowhere and has no continuation is
not left. -/
theorem exits_block_eq_nil (nothing : exits target id block continuation .block = []) :
    block.control? = none ∧ block.isEvent = false ∧ destination? target block .next = none ∧
      continuation = none := by
  cases control : block.control? with
  | some kind => exact absurd nothing (exits_block_ne_nil_of_control? control)
  | none =>
    simp only [exits, control, if_true, plainExits] at nothing
    cases leads : destination? target block .next with
    | some next => simp [leads] at nothing
    | none =>
      cases event : block.isEvent with
      | true => simp [leads, event] at nothing
      | false =>
        cases continuation with
        | some place => simp [leads, event] at nothing
        | none => exact ⟨rfl, rfl, rfl, rfl⟩

end

/-! ### Outgoing edges -/

section

variable {target : Target} {entry : String}

/-- The leaf of a script follows a block or the end of a construct that is no endless loop. -/
theorem role_of_isLeaf {source node : Node} (leaf : IsLeaf (scriptSteps target entry) source node) :
    source.role = .block ∨ ∃ kind, kind ≠ .forever ∧ source.role = joinRole kind := by
  obtain ⟨step, walked, is, -⟩ := leaf
  obtain ⟨call, made, takes⟩ := Call.mem_scriptSteps_iff.mp walked
  cases takes with
  | block | cut | opening => simp [Step.decided] at is
  | emit meets =>
    obtain ⟨block, more, draws, left, inside⟩ := meets.mem_plan
    obtain planned | ⟨kind, -, opens⟩ := planned_of_mem_plan inside
    · cases planned with
      | leaf =>
        obtain rfl := Step.leaf.inj is
        exact .inl rfl
      | _ => simp [Step.decided] at is
    · contradiction
  | rejoin meets =>
    obtain ⟨block, more, draws, left, inside⟩ := meets.mem_plan
    obtain ⟨⟨kind, -, ends, rfl⟩, -, -⟩ := exists_kind_of_rejoin_mem_plan inside
    simp only [Step.decided] at is
    split at is
    · contradiction
    · obtain rfl := Step.leaf.inj is
      exact .inr ⟨kind, ends, rfl⟩

variable {call : Call} {block : Block} {more : Nat}
  (made : Call.Made target (.ofEntry entry) call) (draws : call.Draws target block)
  (left : call.links = more + 1)
include made draws left

/-- What the plan of a block draws for a node is drawn, be it that the way on from a construct is
another one. -/
theorem exists_drawn_of_settled {step : Step} {start : Node}
    (settled : step ∈ (plan target call.id block call.continuation).flatMap Part.settled)
    (leaves : step.source? = some start) : ∃ finish, Drawn target entry start finish := by
  obtain ⟨part, inside, settled⟩ := List.mem_flatMap.mp settled
  obtain ⟨progress, meets⟩ := Call.exists_meets_of_mem_plan draws left inside
  cases part with
  | emit other =>
    obtain rfl := List.mem_singleton.mp settled
    obtain ⟨⟨source, finish⟩, ends, rfl⟩ := Option.map_eq_some_iff.mp leaves
    exact ⟨finish, step, made.steps_subset (Call.Takes.emit meets).mem_steps, ends⟩
  | opening join =>
    obtain rfl := List.mem_singleton.mp settled
    simp [Step.source?, Step.ends?] at leaves
  | rejoin join other =>
    obtain rfl := List.mem_singleton.mp settled
    obtain rfl := Option.some.inj leaves
    exact ⟨_, _, made.steps_subset (Call.Takes.rejoin meets).mem_steps, rfl⟩
  | walk visits first other => simp [Part.settled] at settled

/-- A node of a block that the law of exits does not leave out has an outgoing edge. -/
theorem exists_drawn_of_exits_ne_nil {role : Role}
    (some_exit : exits target call.id block call.continuation role ≠ []) :
    ∃ finish, Drawn target entry ⟨call.id, role⟩ finish := by
  rw [← leaving_plan] at some_exit
  obtain ⟨_, inside⟩ := List.exists_mem_of_ne_nil _ some_exit
  obtain ⟨step, inside, -⟩ := List.mem_map.mp inside
  obtain ⟨settled, leaves⟩ := List.mem_filter.mp inside
  exact exists_drawn_of_settled made draws left settled (of_decide_eq_true leaves)

/-- Control goes back from the end of the body of an endless loop. -/
theorem drawn_back (control : block.control? = some .forever) :
    Drawn target entry ⟨call.id, .again⟩ (.ofBlock call.id) := by
  have inside : .emit (.edge ⟨call.id, .again⟩ (.ofBlock call.id)) ∈
      plan target call.id block call.continuation := by
    simp [plan, control, constructParts, joinRole]
  obtain ⟨progress, meets⟩ := Call.exists_meets_of_mem_plan draws left inside
  exact ⟨_, made.steps_subset (Call.Takes.emit meets).mem_steps, rfl⟩

omit left in
/-- The node of a block that a walk draws has an outgoing edge, unless the walk ends there. -/
theorem exists_drawn_ofBlock :
    (∃ finish, Drawn target entry (.ofBlock call.id) finish) ∨ EndsOpen target entry call.id := by
  cases left : call.links with
  | zero => exact .inl ⟨_, _, made.steps_subset (Call.Takes.cut draws left).mem_steps, rfl⟩
  | succ more =>
    by_cases nothing : exits target call.id block call.continuation .block = []
    · obtain ⟨plain, event, last, alone⟩ := exits_block_eq_nil nothing
      obtain ⟨count, reached⟩ := made.exists_reached
      rw [alone] at reached
      exact .inr ⟨⟨call, block, made, draws, rfl, alone, plain, event, last⟩, count, reached⟩
    · exact .inl (exists_drawn_of_exits_ne_nil made draws left nothing)

end

section

variable {target : Target} {entry : String} {node : Node}

/-- Every node that a script declares has an outgoing edge, unless it is a leaf, a sentinel, or a
block at which a walk ends outside all constructs. -/
theorem exists_drawn_of_isDeclared (declared : IsDeclared (scriptSteps target entry) node) :
    (∃ finish, Drawn target entry node finish) ∨
      (∃ source, IsLeaf (scriptSteps target entry) source node) ∨
        (∃ id, IsSentinel (scriptSteps target entry) id node) ∨
          ∃ id, node = .ofBlock id ∧ EndsOpen target entry id := by
  obtain ⟨step, walked, declares⟩ := declared
  obtain ⟨call, made, takes⟩ := Call.mem_scriptSteps_iff.mp walked
  cases takes with
  | block draws =>
    obtain rfl := Option.some.inj declares
    apply (exists_drawn_ofBlock made draws).imp_right
    exact fun ends => .inr (.inr ⟨call.id, rfl, ends⟩)
  | cut =>
    obtain rfl := Option.some.inj declares
    exact .inr (.inr (.inl ⟨call.id, walked, rfl⟩))
  | emit meets =>
    obtain ⟨block, more, draws, left, inside⟩ := meets.mem_plan
    obtain planned | ⟨kind, -, opens⟩ := planned_of_mem_plan inside
    · -- of the steps that a plan knows beforehand only a leaf declares a node
      cases planned with
      | leaf =>
        obtain rfl := Option.some.inj declares
        exact .inr (.inl ⟨_, _, walked, rfl, rfl⟩)
      | _ => simp [Step.declared?] at declares
    · contradiction
  | opening meets =>
    obtain ⟨block, more, draws, left, inside⟩ := meets.mem_plan
    obtain ⟨kind, control, rfl⟩ := exists_kind_of_opening_mem_plan inside
    obtain rfl := Option.some.inj declares
    exact .inl (exists_drawn_of_exits_ne_nil made draws left (exits_joinRole_ne_nil control))
  | @rejoin join continuation progress =>
    cases way : (enclosing? target progress.ends join.owner).or continuation with
    | some place => simp [Step.declared?, way] at declares
    | none =>
      simp only [Step.declared?, way, Option.isSome_none, Bool.false_eq_true, if_false,
        Option.some.injEq] at declares
      exact .inr (.inl ⟨join, _, walked, by simp [Step.decided, way], declares.symm⟩)

theorem leaf_ne_again (role : Role) : role.leaf ≠ .again := by
  cases role <;> decide

/-- The end of the body of an endless loop that a script declares leads back to the loop. -/
theorem drawn_back_of_isDeclared {id : String}
    (declared : IsDeclared (scriptSteps target entry) ⟨id, .again⟩) :
    Drawn target entry ⟨id, .again⟩ (.ofBlock id) := by
  obtain ⟨step, walked, declares⟩ := declared
  obtain ⟨call, made, takes⟩ := Call.mem_scriptSteps_iff.mp walked
  cases takes with
  | block | cut => simp [Step.declared?, Node.ofBlock] at declares
  | emit meets =>
    obtain ⟨block, more, draws, left, inside⟩ := meets.mem_plan
    obtain planned | ⟨kind, -, opens⟩ := planned_of_mem_plan inside
    · cases planned <;> simp [Step.declared?, Node.ofBlock, Node.leaf, Role.leaf] at declares
    · contradiction
  | opening meets =>
    obtain ⟨block, more, draws, left, inside⟩ := meets.mem_plan
    obtain ⟨kind, control, rfl⟩ := exists_kind_of_opening_mem_plan inside
    obtain ⟨rfl, role⟩ := Node.mk.inj (Option.some.inj declares)
    cases kind with
    | forever => exact drawn_back made draws left control
    | ifThen | ifElse | repeatTimes | repeatUntil => simp [joinRole] at role
  | @rejoin join continuation progress meets =>
    -- what is declared on the way on from a construct is a leaf
    simp only [Step.declared?] at declares
    split at declares
    · contradiction
    · exact absurd (congrArg Node.role (Option.some.inj declares)) (leaf_ne_again join.role)

end

end ScriptChart.Flow
