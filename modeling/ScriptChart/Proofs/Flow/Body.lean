import ScriptChart.Proofs.Flow.Arrival

/-!
# Bodies of constructs

The body of a construct is what its branches lead to. In a well-linked target control enters a body
only from the block of the construct, at the first block of a branch, and leaves it only to the node
in which the construct ends. The argument is local: an edge of a script stays at its block, follows
a link, or goes to the end of the innermost construct around its block, and each of these respects
every body.

## Main definitions

* `InBody`: the blocks in the branches of a construct.
* `Drawn`: the edges of a script.
* `Way`: the ways in which an edge goes on from a node.

## Main results

* `Drawn.way`: every edge of a script goes one of these ways.
* `Drawn.eq_end_of_leaves`: a body is left to the end of its construct.
* `Drawn.eq_first_of_enters`: a body is entered from its construct.
* `Drawn.stays_in_forever`: an endless loop is not left.
-/

namespace ScriptChart.Flow

open ScriptChart.Project

/-- A block lies in a branch of a construct. -/
def InBody (target : Target) (construct id : String) : Prop :=
  ∃ link next, link ≠ .next ∧ Follows target construct link next ∧ Leads target next id

/-- A script has an edge between two nodes. -/
def Drawn (target : Target) (entry : String) (start finish : Node) : Prop :=
  ∃ step ∈ scriptSteps target entry, step.ends? = some (start, finish)

/-- The ways in which an edge goes on from a node of a block around which a construct may end in a
node. -/
inductive Way (target : Target) (join : Option Node) (start finish : Node) : Prop where
  /-- To a node of the same block. -/
  | stay (same : finish.owner = start.owner)
  /-- Along a link, to the block that it leads to. Branches begin at the block itself. -/
  | follow {link : Link} (follows : Follows target start.owner link finish.owner)
      (first : finish.role = .block) (branch : link ≠ .next → start.role = .block)
  /-- To the end of the innermost construct around the block. -/
  | close (ends : join = some finish)

/-! ### Blocks in bodies -/

namespace InBody

variable {target : Target} {construct id next : String} {link : Link}

theorem first (branch : link ≠ .next) (follows : Follows target construct link next) :
    InBody target construct next :=
  ⟨link, next, branch, follows, .refl⟩

theorem leads (inside : InBody target construct id) (beyond : Leads target id next) :
    InBody target construct next := by
  obtain ⟨link, head, branch, follows, within⟩ := inside
  exact ⟨link, head, branch, follows, within.trans beyond⟩

theorem follow (inside : InBody target construct id) (follows : Follows target id link next) :
    InBody target construct next :=
  inside.leads follows.leads

/-- What lies in a body within a body lies in the outer one. -/
theorem trans {inner : String} (outside : InBody target construct inner)
    (inside : InBody target inner id) : InBody target construct id := by
  obtain ⟨link, head, -, follows, within⟩ := inside
  exact outside.leads (follows.leads.trans within)

/-- A block is in a body either as the first one of a branch or after another one of the body. -/
theorem exists_follows (inside : InBody target construct id) :
    ∃ link above, Follows target above link id ∧
      (above = construct ∧ link ≠ .next ∨ InBody target construct above) := by
  obtain ⟨link, head, branch, follows, within⟩ := inside
  -- the last link of the way to the block
  obtain rfl | ⟨above, before, last, step⟩ := within.cases_tail
  · exact ⟨link, construct, follows, .inl ⟨rfl, branch⟩⟩
  · exact ⟨last, above, step, .inr ⟨link, head, branch, follows, before⟩⟩

theorem hasBlock (inside : InBody target construct id) : target.hasBlock id = true := by
  obtain ⟨link, above, follows, -⟩ := inside.exists_follows
  exact follows.hasBlock

/-- No script begins within a body. -/
theorem not_isRoot (linked : WellLinked target) (inside : InBody target construct id) :
    ¬ IsRoot target id := by
  obtain ⟨link, above, follows, -⟩ := inside.exists_follows
  exact linked.not_isRoot_of_follows follows

end InBody

namespace Reached

variable {target : Target} {start id : String} {count : Nat}

/-- The innermost construct around a block is the one around the start, or one that the start leads
to. -/
theorem join_cases {around join : Option Node}
    (reached : Reached target start around id count join) :
    join = around ∨ ∃ node, join = some node ∧ Leads target start node.owner := by
  induction reached with
  | start => exact .inl rfl
  | @follow id count join block link next before present followed leads ih =>
    by_cases chained : link = .next
    · subst chained
      exact ih
    · obtain ⟨kind, -, along⟩ := joinAlong_of_ne_next id followed chained join
      exact .inr ⟨_, along, before.leads⟩

/-- A block lies in the body of the innermost construct around it. -/
theorem inBody_join {node : Node} (reached : Reached target start none id count (some node)) :
    InBody target node.owner id := by
  -- induction on the way: along a chain the construct stays, and a branch begins in its body
  generalize named : some node = join at reached
  induction reached with
  | start => simp at named
  | @follow id count join block link next before present followed leads ih =>
    have follows : Follows target id link next := ⟨block, present, followed, leads⟩
    by_cases chained : link = .next
    · subst chained
      exact (ih named).follow follows
    · obtain ⟨kind, -, along⟩ := joinAlong_of_ne_next id followed chained join
      rw [along] at named
      obtain rfl := Option.some.inj named
      exact .first chained follows

/-- The innermost construct around a block in a body is the one with this body or lies in it. -/
theorem join_of_inBody (linked : WellLinked target) (root : IsRoot target start)
    {construct : String} {join join' : Option Node} {count' : Nat} {block : Block}
    {kind : ControlKind} (above : Reached target start none construct count' join')
    (present : target.block? construct = some block) (control : block.control? = some kind)
    (reached : Reached target start none id count join) (inside : InBody target construct id) :
    ∃ node, join = some node ∧
      (node = ⟨construct, joinRole kind⟩ ∨ InBody target construct node.owner) := by
  obtain ⟨link, head, branch, ⟨block', present', followed, leads⟩, within⟩ := inside
  obtain rfl := Option.some.inj (present.symm.trans present')
  obtain ⟨kind', control', along⟩ := joinAlong_of_ne_next construct followed branch join'
  obtain rfl := Option.some.inj (control.symm.trans control')
  have first : Reached target start none head (count' + 1) (some ⟨construct, joinRole kind⟩) :=
    along ▸ Reached.follow above present followed leads
  obtain ⟨more, inner, beyond⟩ := within.exists_reached (some ⟨construct, joinRole kind⟩)
  -- the way through the branch is the only one
  obtain ⟨-, -, rfl⟩ := reached.unique linked root root (first.trans beyond)
  obtain rfl | ⟨node, rfl, later⟩ := beyond.join_cases
  · exact ⟨_, rfl, .inl rfl⟩
  · exact ⟨node, rfl, .inr ⟨link, head, branch, ⟨block, present, followed, leads⟩, later⟩⟩

end Reached

/-! ### The ways of edges -/

/-- The law of exits goes no other ways. -/
theorem way_of_mem_exits {target : Target} {id : String} {block : Block} {join : Option Node}
    {role : Role} {step : Step} {start finish : Node} (present : target.block? id = some block)
    (inside : step ∈ exits target id block join role)
    (draws : step.ends? = some (start, finish)) : Way target join start finish := by
  obtain ⟨source, arrives⟩ := arrives_of_mem_exits inside draws
  have own : start.owner = id := by
    obtain rfl | ⟨kind, -, rfl⟩ := source <;> rfl
  subst own
  cases arrives with
  | own | join _ => exact .stay rfl
  | follow followed leads branch =>
    refine .follow ⟨block, present, followed, leads⟩ rfl fun different => ?_
    exact congrArg Node.role (branch different)
  | close ends => exact .close ends
  | inline declares =>
    exact .stay ((Step.owner_of_declared? declares).symm.trans (Step.owner_of_ends? draws))

/-! ### Edges and bodies -/

namespace Drawn

variable {target : Target} (linked : WellLinked target) {entry : String}
  (root : IsRoot target entry) {start finish : Node} (drawn : Drawn target entry start finish)
include linked root drawn

omit linked root in
theorem exists_leaving : ∃ step ∈ leaving start (scriptSteps target entry),
    step.ends? = some (start, finish) := by
  obtain ⟨step, walked, draws⟩ := drawn
  refine ⟨step.decided, List.mem_map_of_mem (List.mem_filter.mpr ⟨walked, ?_⟩), ?_⟩
  · exact decide_eq_true (by simp [Step.source?, draws])
  · rw [Step.ends?_decided, draws]

/-- An edge that leaves a node of a block whose links are followed is one that the law gives. -/
theorem exists_mem_exits {count : Nat} {join : Option Node} {block : Block}
    (reached : Reached target entry none start.owner count join)
    (present : target.block? start.owner = some block) (within : count < linkLimit) :
    ∃ step ∈ exits target start.owner block join start.role,
      step.ends? = some (start, finish) := by
  obtain ⟨step, leaves, draws⟩ := drawn.exists_leaving
  have law := leaving_scriptSteps linked root reached present within start.role
  exact ⟨step, law.mem_iff.mp leaves, draws⟩

/-- Every edge of a script leaves a node of a block that the script reaches, and it stays at this
block, follows a link, or goes to the end of the innermost construct around the block. -/
theorem way : ∃ count join, Reached target entry none start.owner count join ∧
    Way target join start finish := by
  obtain ⟨step, leaves, draws⟩ := drawn.exists_leaving
  obtain ⟨other, walked, draws'⟩ := drawn
  obtain ⟨count, join, within, reached, -⟩ := exists_reached_of_mem_scriptSteps linked root walked
  rw [Step.owner_of_ends? draws'] at reached
  refine ⟨count, join, reached, ?_⟩
  obtain inner | last := Nat.lt_or_eq_of_le within
  · obtain ⟨block, present⟩ := exists_block_of_hasBlock (reached.hasBlock root.hasBlock)
    have law := leaving_scriptSteps linked root reached present inner start.role
    exact way_of_mem_exits present (law.mem_iff.mp leaves) draws
  · -- the edge to the sentinel
    have law := leaving_scriptSteps_cut linked root reached last start.role
    have only := law.mem_iff.mp leaves
    split at only
    · rw [List.mem_singleton.mp only] at draws
      obtain ⟨_, rfl⟩ := Prod.mk.inj (Option.some.inj draws)
      exact .stay rfl
    · simp at only

theorem hasBlock_start : target.hasBlock start.owner = true := by
  obtain ⟨count, join, reached, -⟩ := drawn.way linked root
  exact reached.hasBlock root.hasBlock

theorem hasBlock_finish : target.hasBlock finish.owner = true := by
  obtain ⟨count, join, reached, way⟩ := drawn.way linked root
  cases way with
  | stay same => exact same ▸ reached.hasBlock root.hasBlock
  | follow follows _ _ => exact follows.hasBlock
  | close ends =>
    subst ends
    obtain ⟨link, head, -, ⟨block, present, -⟩, -⟩ := reached.inBody_join
    exact hasBlock_of_block? present

/-- An edge that leaves the body of a construct goes to the node in which the construct ends. -/
theorem eq_end_of_leaves {construct : String} {count : Nat} {join : Option Node} {block : Block}
    {kind : ControlKind} (above : Reached target entry none construct count join)
    (present : target.block? construct = some block) (control : block.control? = some kind)
    (inside : InBody target construct start.owner)
    (outside : ¬ InBody target construct finish.owner) :
    finish = ⟨construct, joinRole kind⟩ := by
  obtain ⟨_, around, reached, way⟩ := drawn.way linked root
  -- a body is closed under staying and following
  cases way with
  | stay same => exact absurd (same ▸ inside) outside
  | follow follows _ _ => exact absurd (inside.follow follows) outside
  | close ends =>
    obtain ⟨node, rfl, same | within⟩ :=
      above.join_of_inBody linked root present control reached inside
    · exact (Option.some.inj ends).symm.trans same
    · exact absurd (Option.some.inj ends ▸ within) outside

/-- An edge that enters the body of a construct leaves the block of the construct and arrives at
the first block of a branch. -/
theorem eq_first_of_enters {construct : String}
    (outside : ¬ InBody target construct start.owner)
    (inside : InBody target construct finish.owner) :
    start = .ofBlock construct ∧
      ∃ link next, link ≠ .next ∧ Follows target construct link next ∧
        finish = .ofBlock next := by
  obtain ⟨_, around, reached, way⟩ := drawn.way linked root
  cases way with
  | stay same => exact absurd (same ▸ inside) outside
  | @follow link follows first branch =>
    -- the block that is arrived at has no other block above it
    obtain ⟨last, above, step, ⟨rfl, into⟩ | within⟩ := inside.exists_follows
    · obtain ⟨same, rfl⟩ := linked.follows_unique follows step
      refine ⟨?_, link, finish.owner, into, step, ?_⟩
      · exact Node.ext same (branch into)
      · exact Node.ext rfl first
    · exact absurd ((linked.follows_unique follows step).1 ▸ within) outside
  | close ends =>
    -- a construct in the body has its own body in it
    subst ends
    exact absurd (inside.trans reached.inBody_join) outside

/-- From an endless loop an edge goes into the body or to the end of the body, and from there it
goes back. -/
theorem stays_in_forever {construct : String} {count : Nat} {join : Option Node} {block : Block}
    (above : Reached target entry none construct count join) (within : count < linkLimit)
    (present : target.block? construct = some block) (control : block.control? = some .forever)
    (from_loop : start = .ofBlock construct ∨ start = ⟨construct, .again⟩) :
    finish = .ofBlock construct ∨ finish = ⟨construct, .again⟩ ∨
      InBody target construct finish.owner := by
  obtain rfl | rfl := from_loop
  · obtain ⟨step, inside, draws⟩ := drawn.exists_mem_exits linked root above present within
    have only : step = .edge (.ofBlock construct)
        (arrival target block .substack ⟨construct, .again⟩) := by
      simpa [exits, control, Node.ofBlock, constructExits] using inside
    subst only
    obtain ⟨-, rfl⟩ := Prod.mk.inj (Option.some.inj draws)
    unfold arrival
    cases leads : destination? target block .substack with
    | none => exact .inr (.inl rfl)
    | some first =>
      have followed : .substack ∈ followedLinks block := by simp [followedLinks, control]
      exact .inr (.inr (.first (by decide) ⟨block, present, followed, leads⟩))
  · -- from the end of the body
    obtain ⟨step, inside, draws⟩ := drawn.exists_mem_exits linked root above present within
    have only : step = .edge ⟨construct, .again⟩ (.ofBlock construct) := by
      simpa [exits, control, joinRole, joinExits] using inside
    subst only
    obtain ⟨-, rfl⟩ := Prod.mk.inj (Option.some.inj draws)
    exact .inl rfl

end Drawn

end ScriptChart.Flow
