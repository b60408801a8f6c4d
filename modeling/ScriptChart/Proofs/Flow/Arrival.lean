import ScriptChart.Proofs.Flow.Exits

/-!
# Where edges arrive

An edge that is drawn for a block leaves the block or the node in which its construct ends. It
arrives there too, or at a block that a link leads to, or at the continuation, or at a node that its
own line declares. This is read off the law of exits, whatever the links of the target are.

## Main definitions

* `Arrives`: where the edges of a block arrive.

## Main results

* `arrives_of_mem_exits`, `arrives_of_mem_settled`: the edges of a block arrive nowhere else.
-/

namespace ScriptChart.Flow

open ScriptChart.Project

/-- The nodes at which an edge arrives that is drawn for a block and leaves a node of it, when
control goes on with a continuation and the line of the edge may declare a node. -/
inductive Arrives (target : Target) (id : String) (block : Block)
    (continuation declared : Option Node) (start : Node) : Node → Prop where
  /-- At the block itself. -/
  | own : Arrives target id block continuation declared start (.ofBlock id)
  /-- At the end of the block's construct. -/
  | join {kind : ControlKind} (control : block.control? = some kind) :
      Arrives target id block continuation declared start ⟨id, joinRole kind⟩
  /-- At a block that a link leads to. Branches begin at the block itself. -/
  | follow {link : Link} {next : String} (followed : link ∈ followedLinks block)
      (leads : destination? target block link = some next)
      (branch : link ≠ .next → start = .ofBlock id) :
      Arrives target id block continuation declared start (.ofBlock next)
  /-- At the continuation. -/
  | close {place : Node} (ends : continuation = some place) :
      Arrives target id block continuation declared start place
  /-- At the node that is declared with it. -/
  | inline {place : Node} (declares : declared = some place) :
      Arrives target id block continuation declared start place

section

variable {target : Target} {id : String} {block : Block} {continuation declared : Option Node}
  {step : Step} {start finish : Node}

theorem arrives_arrival {kind : ControlKind} (control : block.control? = some kind) {link : Link}
    (followed : link ∈ followedLinks block) :
    Arrives target id block continuation declared (.ofBlock id)
      (arrival target block link ⟨id, joinRole kind⟩) := by
  unfold arrival
  cases leads : destination? target block link with
  | none => exact .join control
  | some first => exact .follow followed leads fun _ => rfl

theorem arrives_next {next : String} (followed : .next ∈ followedLinks block)
    (leads : destination? target block .next = some next) :
    Arrives target id block continuation declared start (.ofBlock next) :=
  .follow followed leads fun different => absurd rfl different

theorem arrives_of_mem_plainExits (plain : block.control? = none)
    (inside : step ∈ plainExits target id block continuation)
    (draws : step.ends? = some (start, finish)) :
    start = .ofBlock id ∧ Arrives target id block continuation step.declared? start finish := by
  have followed : .next ∈ followedLinks block := by simp [followedLinks, plain]
  unfold plainExits at inside
  cases leads : destination? target block .next with
  | some next =>
    simp only [leads, List.mem_singleton] at inside
    subst inside
    obtain ⟨rfl, rfl⟩ := Prod.mk.inj (Option.some.inj draws)
    exact ⟨rfl, arrives_next followed leads⟩
  | none =>
    simp only [leads] at inside
    split at inside
    · obtain rfl := List.mem_singleton.mp inside
      obtain ⟨rfl, rfl⟩ := Prod.mk.inj (Option.some.inj draws)
      exact ⟨rfl, .inline rfl⟩
    · obtain ⟨place, ends, rfl⟩ := List.mem_map.mp inside
      obtain ⟨rfl, rfl⟩ := Prod.mk.inj (Option.some.inj draws)
      exact ⟨rfl, .close (Option.mem_toList.mp ends)⟩

theorem arrives_of_mem_constructExits {kind : ControlKind} (control : block.control? = some kind)
    (inside : step ∈ constructExits target id block kind)
    (draws : step.ends? = some (start, finish)) :
    start = .ofBlock id ∧ Arrives target id block continuation step.declared? start finish := by
  have entered : .substack ∈ followedLinks block := by
    cases kind <;> simp [followedLinks, control]
  cases kind with
  | forever =>
    obtain rfl := List.mem_singleton.mp inside
    obtain ⟨rfl, rfl⟩ := Prod.mk.inj (Option.some.inj draws)
    exact ⟨rfl, arrives_arrival control entered⟩
  | ifElse =>
    simp only [constructExits, List.mem_cons, List.not_mem_nil, or_false] at inside
    obtain rfl | rfl := inside <;> obtain ⟨rfl, rfl⟩ := Prod.mk.inj (Option.some.inj draws)
    · exact ⟨rfl, arrives_arrival control entered⟩
    · exact ⟨rfl, arrives_arrival control (by simp [followedLinks, control])⟩
  | ifThen | repeatTimes | repeatUntil =>
    simp only [constructExits, List.mem_cons, List.not_mem_nil, or_false] at inside
    obtain rfl | rfl := inside <;> obtain ⟨rfl, rfl⟩ := Prod.mk.inj (Option.some.inj draws)
    · exact ⟨rfl, arrives_arrival control entered⟩
    · exact ⟨rfl, .join control⟩

theorem arrives_of_mem_joinExits {kind : ControlKind} (control : block.control? = some kind)
    (inside : step ∈ joinExits target id block continuation kind)
    (draws : step.ends? = some (start, finish)) :
    start = ⟨id, joinRole kind⟩ ∧
      Arrives target id block continuation step.declared? start finish := by
  by_cases endless : kind = .forever
  · subst endless
    obtain rfl := List.mem_singleton.mp inside
    obtain ⟨rfl, rfl⟩ := Prod.mk.inj (Option.some.inj draws)
    exact ⟨rfl, .own⟩
  · have followed : .next ∈ followedLinks block := by
      cases kind <;> simp [followedLinks, control] at endless ⊢
    -- all other kinds go on from their end in the same way
    have only : step = onward target block ⟨id, joinRole kind⟩ continuation := by
      cases kind <;> simp [joinExits, joinRole] at endless inside ⊢ <;> exact inside
    subst only
    unfold onward at draws ⊢
    split at draws <;> obtain ⟨rfl, rfl⟩ := Prod.mk.inj (Option.some.inj draws)
    · next next leads => exact ⟨rfl, arrives_next followed leads⟩
    · exact ⟨rfl, .close rfl⟩
    · exact ⟨rfl, .inline rfl⟩

/-- The edges that the law of exits gives for the nodes of a block leave the block or the end of its
construct, and arrive at one of the places above. -/
theorem arrives_of_mem_exits {role : Role}
    (inside : step ∈ exits target id block continuation role)
    (draws : step.ends? = some (start, finish)) :
    (start = .ofBlock id ∨ ∃ kind, block.control? = some kind ∧ start = ⟨id, joinRole kind⟩) ∧
      Arrives target id block continuation step.declared? start finish := by
  unfold exits at inside
  cases control : block.control? with
  | none =>
    simp only [control] at inside
    split at inside
    · exact (arrives_of_mem_plainExits control inside draws).imp_left .inl
    · simp at inside
  | some kind =>
    simp only [control] at inside
    split at inside
    · exact (arrives_of_mem_constructExits control inside draws).imp_left .inl
    · split at inside
      · exact (arrives_of_mem_joinExits control inside draws).imp_left
          fun same => .inr ⟨kind, rfl, same⟩
      · simp at inside

/-- A step that is drawn for a block leaves the block or the end of its construct, and arrives at
one of the places above. -/
theorem arrives_of_mem_settled
    (inside : step ∈ (plan target id block continuation).flatMap Part.settled)
    (draws : step.ends? = some (start, finish)) :
    (start = .ofBlock id ∨ ∃ kind, block.control? = some kind ∧ start = ⟨id, joinRole kind⟩) ∧
      Arrives target id block continuation step.declared? start finish := by
  have beside := isBeside_plan target id block continuation step inside
  have own : start.owner = id := (Step.owner_of_ends? draws).symm.trans beside.1
  obtain ⟨owner, role⟩ := start
  obtain rfl : owner = id := own
  -- the law of exits tells what leaves a node of the block
  have leaves : step.decided ∈
      leaving ⟨owner, role⟩ ((plan target owner block continuation).flatMap Part.settled) := by
    refine List.mem_map_of_mem (List.mem_filter.mpr ⟨inside, decide_eq_true ?_⟩)
    simp [Step.source?, draws]
  rw [leaving_plan] at leaves
  rw [← Step.declared?_decided]
  exact arrives_of_mem_exits leaves ((Step.ends?_decided step).trans draws)

end

end ScriptChart.Flow
