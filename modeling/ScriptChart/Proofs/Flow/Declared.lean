import ScriptChart.Proofs.Flow.Body
import ScriptChart.Proofs.Flow.Call
import ScriptChart.Proofs.Flow.Offers

/-!
# Edges and declarations

The ends of the edges of a script are declared by the script, whatever the links of its target are.
An edge is drawn before the block that it leads to is walked, but this walk draws the block unless
it was drawn before; the end of a construct is declared before any edge leads there; and leaves and
sentinels are declared where the edges to them are.

There is one exception. When nothing follows a construct, the way on is looked for upwards, and the
block below an ancestor is an answer even if no walk comes to it. So an edge may stray from the end
of a construct to a block that stays undeclared. In a well-linked target no edge does.

## Main definitions

* `IsDeclared`: some step declares a node.
* `Strays`: an edge goes from the end of a construct to the block below an ancestor.

## Main results

* `declared_of_drawn`: the ends of edges are declared, those of stray edges excepted.
* `Drawn.not_strays`: in a well-linked target no edge leads astray.
-/

namespace ScriptChart.Flow

open ScriptChart.Project

/-- Some step declares a node. -/
def IsDeclared (steps : List Step) (node : Node) : Prop :=
  ∃ step ∈ steps, step.declared? = some node

instance (steps : List Step) (node : Node) : Decidable (IsDeclared steps node) :=
  inferInstanceAs (Decidable (∃ step ∈ steps, step.declared? = some node))

/-- An edge strays when it leaves the end of a construct without a block below it, that is no
endless loop, and what was found upwards is another block, which stands below an ancestor. -/
structure Strays (target : Target) (start finish : Node) : Prop where
  ends : ∃ block kind, target.block? start.owner = some block ∧ block.control? = some kind ∧
    kind ≠ .forever ∧ start.role = joinRole kind ∧ destination? target block .next = none
  found : ∃ ends, enclosing? target ends start.owner = some finish
  below : ∃ ancestor ∈ ancestors target start.owner,
    destination? target ancestor.2 .next = some finish.owner
  other : finish.role = .block ∧ finish.owner ≠ start.owner

/-! ### What is found upwards -/

section

variable {target : Target} {ends : Ends} {start : String} {node : Node}

/-- What is found upwards was recorded or stands below an ancestor. -/
theorem mem_ends_of_enclosing? (found : enclosing? target ends start = some node) :
    (∃ record ∈ ends, record.2 = node) ∨
      ∃ ancestor ∈ ancestors target start, ∃ next,
        destination? target ancestor.2 .next = some next ∧ next ≠ start ∧ node = .ofBlock next := by
  obtain ⟨child, ancestor, inside, offers⟩ := exists_offers_of_enclosing? found
  cases offers with
  | recorded _ _ recorded =>
    obtain ⟨before, after, whole, -⟩ := List.lookup_eq_some_iff.mp recorded
    exact .inl ⟨(_, node), whole ▸ List.mem_append_cons_self, rfl⟩
  | below _ _ leads present other =>
    exact .inr ⟨_, inside, _, destination?_next leads present, other, rfl⟩

end

/-! ### The edges of calls -/

section

variable {target : Target} {entry : String} {call : Call} {block : Block} {more : Nat}
  (made : Call.Made target (.ofEntry entry) call) (draws : call.Draws target block)
include made draws

theorem isDeclared_ofBlock : IsDeclared (scriptSteps target entry) (.ofBlock call.id) :=
  ⟨_, made.steps_subset (Call.Takes.block draws).mem_steps, rfl⟩

omit made draws in
/-- The block that a script begins with is declared. -/
theorem isDeclared_entry (root : IsRoot target entry) :
    IsDeclared (scriptSteps target entry) (.ofBlock entry) := by
  obtain ⟨block, present, -⟩ := root
  exact isDeclared_ofBlock .refl ⟨by simp [Call.ofEntry, Progress.start], present⟩

variable (left : call.links = more + 1)
include left

theorem isDeclared_join {kind : ControlKind} (control : block.control? = some kind) :
    IsDeclared (scriptSteps target entry) ⟨call.id, joinRole kind⟩ :=
  ⟨_, made.steps_subset (Call.takes_join draws left control).mem_steps, rfl⟩

/-- The block that a followed link leads to is drawn, if not before, then by the walk from there. -/
theorem isDeclared_of_follows {link : Link} {next : String} (followed : link ∈ followedLinks block)
    (leads : destination? target block link = some next) :
    IsDeclared (scriptSteps target entry) (.ofBlock next) := by
  obtain ⟨progress, makes⟩ := Call.exists_makes draws left followed leads
  have onward := made.tail makes
  obtain (visited | absent) | ⟨child, drawn⟩ := Call.passed_or_draws target
    ⟨more, next, joinAlong call.id block link call.continuation, progress⟩
  · obtain ⟨links, inside⟩ := (Call.backed_of_made onward).drawn.visited next visited
    exact ⟨_, inside, rfl⟩
  · obtain ⟨child, present⟩ := exists_block_of_destination? leads
    exact absurd (absent.symm.trans present) (by simp)
  · exact isDeclared_ofBlock onward drawn

/-- Where edges arrive is declared. -/
theorem isDeclared_of_arrives {step : Step} {start finish : Node}
    (walked : step ∈ scriptSteps target entry)
    (arrives : Arrives target call.id block call.continuation step.declared? start finish) :
    IsDeclared (scriptSteps target entry) finish := by
  cases arrives with
  | own => exact isDeclared_ofBlock made draws
  | join control => exact isDeclared_join made draws left control
  | follow followed leads _ => exact isDeclared_of_follows made draws left followed leads
  | close ends => exact ⟨_, (Call.backed_of_made made).continuation finish ends, rfl⟩
  | inline declares => exact ⟨step, walked, declares⟩

end

/-- The ends of an edge of a script are declared by the script, whatever the links of the target
are, unless the edge strays. -/
theorem declared_of_drawn {target : Target} {entry : String} {start finish : Node}
    (drawn : Drawn target entry start finish) :
    IsDeclared (scriptSteps target entry) start ∧
      (IsDeclared (scriptSteps target entry) finish ∨ Strays target start finish) := by
  obtain ⟨step, walked, ends⟩ := drawn
  obtain ⟨call, made, takes⟩ := Call.mem_scriptSteps_iff.mp walked
  cases takes with
  | block | opening => simp [Step.ends?] at ends
  | cut draws last =>
    -- the sentinel is declared with the edge
    obtain ⟨rfl, rfl⟩ := Prod.mk.inj (Option.some.inj ends)
    exact ⟨isDeclared_ofBlock made draws, .inl ⟨_, walked, rfl⟩⟩
  | emit meets =>
    obtain ⟨block, more, draws, left, planned⟩ := meets.mem_plan
    have settled : step ∈ (plan target call.id block call.continuation).flatMap Part.settled :=
      List.mem_flatMap.mpr ⟨_, planned, List.mem_singleton_self step⟩
    obtain ⟨source, arrives⟩ := arrives_of_mem_settled settled ends
    refine ⟨?_, .inl (isDeclared_of_arrives made draws left walked arrives)⟩
    obtain rfl | ⟨kind, control, rfl⟩ := source
    · exact isDeclared_ofBlock made draws
    · exact isDeclared_join made draws left control
  | @rejoin join continuation progress meets =>
    obtain ⟨block, more, draws, left, planned⟩ := meets.mem_plan
    obtain ⟨⟨kind, control, endless, rfl⟩, last, rfl⟩ := exists_kind_of_rejoin_mem_plan planned
    obtain ⟨rfl, rfl⟩ := Prod.mk.inj (Option.some.inj ends)
    refine ⟨isDeclared_join made draws left control, ?_⟩
    have backed := Call.backed_of_made made
    cases upwards : enclosing? target progress.ends call.id with
    | none =>
      cases around : call.continuation with
      | none => exact .inl ⟨_, walked, by simp [Step.declared?, upwards, around]⟩
      | some place => exact .inl ⟨_, backed.continuation place around, by simp [Step.declared?]⟩
    | some place =>
      obtain ⟨record, inside, rfl⟩ | ⟨ancestor, above, next, leads, apart, rfl⟩ :=
        mem_ends_of_enclosing? upwards
      · have known := backed.isDrawn_of_meets made.steps_subset meets
        exact .inl ⟨_, known.ends record inside, by simp [Step.declared?]⟩
      · exact .inr ⟨⟨block, kind, draws.present, control, endless, rfl, last⟩,
          ⟨progress.ends, upwards⟩, ⟨ancestor, above, leads⟩, rfl, apart⟩

/-! ### Well-linked targets -/

theorem joinRole_ne_block (kind : ControlKind) : joinRole kind ≠ .block := by
  cases kind <;> decide

/-- Around a block no construct ends in the node of a block. -/
theorem Reached.exists_kind_of_join {target : Target} {start id : String} {count : Nat}
    {node : Node} (reached : Reached target start none id count (some node)) :
    ∃ kind, node.role = joinRole kind := by
  -- induction on the way: along a chain the construct stays, and a branch ends in its own node
  generalize named : some node = join at reached
  induction reached with
  | start => simp at named
  | @follow id count join block link next before present followed leads ih =>
    by_cases chained : link = .next
    · subst chained
      exact ih named
    · obtain ⟨kind, -, along⟩ := joinAlong_of_ne_next id followed chained join
      rw [along] at named
      exact ⟨kind, congrArg Node.role (Option.some.inj named)⟩

namespace Drawn

variable {target : Target} (linked : WellLinked target) {entry : String}
  (root : IsRoot target entry) {start finish : Node} (drawn : Drawn target entry start finish)
include linked root drawn

theorem not_strays : ¬ Strays target start finish := by
  rintro ⟨⟨block, kind, present, control, -, role, last⟩, -, -, first, other⟩
  obtain ⟨count, join, reached, way⟩ := drawn.way linked root
  cases way with
  | stay same => exact other same
  | @follow link follows _ branch =>
    -- a branch would begin at the block and not at the end of the construct
    obtain ⟨block', present', followed, leads⟩ := follows
    obtain rfl := Option.some.inj (present.symm.trans present')
    by_cases chained : link = .next
    · subst chained
      simp [last] at leads
    · exact joinRole_ne_block kind (role.symm.trans (branch chained))
  | close ends =>
    subst ends
    obtain ⟨outer, role'⟩ := reached.exists_kind_of_join
    exact joinRole_ne_block outer (role'.symm.trans first)

end Drawn

end ScriptChart.Flow
