import ScriptChart.Proofs.Flow.Climb

/-!
# What a search upwards finds

A search upwards goes along the chain of parents, which ends at the first block that was met before
or is not there, and comes to a result at the first ancestor that offers something. It never finds
the construct from which it started: an end that it finds belongs to another construct, and a block
that it finds is another block. Nothing is asked of the links of the target, nor of the ends that
were recorded.

## Main definitions

* `Above`, `ParentChain`: the blocks above a block, told without a bound.
* `stages`: the ancestors of a block, each with the block from which the search comes to it.
* `Offers`: what an ancestor offers.

## Main results

* `parentChain_iff`: the ancestors of a block are its chain of parents.
* `enclosing?_eq_some_iff`: a search finds what the first ancestor offers that offers anything.
* `cases_of_enclosing?`: a search finds another construct or another block.
-/

namespace ScriptChart.Flow

open ScriptChart.Project

/-! ### The chain of parents -/

/-- The blocks above, when some blocks were met before: a parent, its own parent and so on, up to
the first one that was met before or is not there. -/
inductive Above (target : Target) : List String → Option String → List (String × Block) → Prop
  /-- There is no parent. -/
  | top (met : List String) : Above target met none []
  /-- The parent was met before. -/
  | again {met : List String} {id : String} (known : id ∈ met) : Above target met (some id) []
  /-- The parent is not there. -/
  | absent (met : List String) {id : String} (missing : target.block? id = none) :
      Above target met (some id) []
  /-- The parent is another block, and other blocks are above it. -/
  | parent {met : List String} {id : String} {block : Block} {chain : List (String × Block)}
      (unmet : id ∉ met) (present : target.block? id = some block)
      (rest : Above target (id :: met) block.parent chain) :
      Above target met (some id) ((id, block) :: chain)

/-- The chain of parents above a block. -/
def ParentChain (target : Target) (start : String) (chain : List (String × Block)) : Prop :=
  Above target [start] ((target.block? start).bind fun block => block.parent) chain

section

variable {target : Target} {met : List String} {above : Option String}
  {chain other : List (String × Block)}

/-- There is only one chain above. -/
theorem Above.unique (first : Above target met above chain)
    (second : Above target met above other) : chain = other := by
  induction first generalizing other with
  | top => cases second; rfl
  | again known =>
    cases second with
    | again | absent => rfl
    | parent unmet => exact absurd known unmet
  | absent _ missing =>
    cases second with
    | again | absent => rfl
    | parent _ present => simp [missing] at present
  | parent unmet present _ ih =>
    cases second with
    | again known => exact absurd known unmet
    | absent _ missing => simp [present] at missing
    | parent _ present' rest =>
      obtain rfl := Option.some.inj (present.symm.trans present')
      rw [ih rest]

/-- The blocks above are there and were not met before. -/
theorem Above.of_mem (holds : Above target met above chain) {ancestor : String × Block}
    (inside : ancestor ∈ chain) :
    ancestor.1 ∉ met ∧ target.block? ancestor.1 = some ancestor.2 := by
  induction holds with
  | top | again | absent => contradiction
  | parent unmet present _ ih =>
    obtain rfl | later := List.mem_cons.mp inside
    · exact ⟨unmet, present⟩
    · exact ⟨fun known => (ih later).1 (List.mem_cons_of_mem _ known), (ih later).2⟩

/-- Bounded by the number of blocks that were not met, the ancestors are all that is above. -/
theorem above_ancestorsFrom (meets : Climb.Meets target met) {count : Nat}
    (enough : target.blocks.size < met.length + count) (above : Option String) :
    Above target met above (ancestorsFrom target count met above) := by
  -- induction on the bound: each ancestor is a block that was not met before
  induction count generalizing met above with
  | zero =>
    have bound := meets.length_le
    omega
  | succ count ih =>
    cases above with
    | none => exact .top met
    | some id =>
      cases unmet : met.contains id with
      | true =>
        simp only [ancestorsFrom, unmet, if_true]
        exact .again (List.contains_iff_mem.mp unmet)
      | false =>
        cases present : target.block? id with
        | none =>
          simp only [ancestorsFrom, unmet, Bool.false_eq_true, if_false, present]
          exact .absent met present
        | some block =>
          simp only [ancestorsFrom, unmet, Bool.false_eq_true, if_false, present]
          have more : target.blocks.size < (id :: met).length + count := by
            rw [List.length_cons]
            omega
          exact .parent (by simpa using unmet) present
            (ih (meets.cons unmet present) more block.parent)

theorem parentChain_ancestors (target : Target) (start : String) :
    ParentChain target start (ancestors target start) := by
  unfold ParentChain ancestors
  cases present : target.block? start with
  | none =>
    rw [Option.bind_none]
    cases target.blocks.size <;> exact .top _
  | some block =>
    refine above_ancestorsFrom (Climb.meets_single present) ?_ block.parent
    rw [List.length_singleton]
    omega

/-- The ancestors of a block are its chain of parents, and no bound takes any of them away. -/
theorem parentChain_iff {start : String} :
    ParentChain target start chain ↔ chain = ancestors target start := by
  constructor
  · intro holds
    exact holds.unique (parentChain_ancestors target start)
  · rintro rfl
    exact parentChain_ancestors target start

end

/-! ### Offers -/

/-- The ancestors of a block, each with the block from which the search comes to it. -/
def stages (start : String) (chain : List (String × Block)) : List (String × String × Block) :=
  (start :: chain.map Prod.fst).zip chain

/-- What an ancestor offers to a search that comes to it from the block below. An ancestor that
leads to this block by its own link offers nothing, and a recorded end goes before the block below
the ancestor. -/
inductive Offers (target : Target) (ends : Ends) (start : String) :
    String × String × Block → Node → Prop
  /-- A construct offers its recorded end. -/
  | recorded {child id : String} {block : Block} {node : Node} (apart : block.next ≠ some child)
      (construct : block.control?.isSome = true) (found : ends.lookup id = some node) :
      Offers target ends start (child, id, block) node
  /-- Any other ancestor offers the block below it, unless the search started there. -/
  | below {child id next : String} {block : Block} (apart : block.next ≠ some child)
      (unrecorded : block.control? = none ∨ ends.lookup id = none)
      (leads : block.next = some next) (present : target.hasBlock next = true)
      (other : next ≠ start) : Offers target ends start (child, id, block) (.ofBlock next)

section

variable {target : Target} {ends : Ends} {start : String} {node : Node}

theorem destination?_next {block : Block} {next : String} (leads : block.next = some next)
    (present : target.hasBlock next = true) : destination? target block .next = some next := by
  simp [destination?, named?, leads, present]

theorem offer?_eq_some_iff {stage : String × String × Block} :
    offer? target ends start stage.1 stage.2 = some node ↔
      Offers target ends start stage node := by
  obtain ⟨child, id, block⟩ := stage
  constructor
  · intro offers
    unfold offer? at offers
    split at offers
    · simp at offers
    · next apart =>
      obtain recorded | ⟨unrecorded, below⟩ := Option.or_eq_some_iff.mp offers
      · split at recorded
        · next construct => exact .recorded apart construct recorded
        · simp at recorded
      · obtain ⟨next, found, rfl⟩ := Option.map_eq_some_iff.mp below
        obtain ⟨leads, other⟩ := Option.filter_eq_some_iff.mp found
        refine .below apart ?_ (named?_of_destination? leads) (hasBlock_of_destination? leads)
          (bne_iff_ne.mp other)
        split at unrecorded
        · exact .inr unrecorded
        · next plain => exact .inl (Option.not_isSome_iff_eq_none.mp plain)
  · intro offers
    cases offers with
    | recorded apart construct found => simp [offer?, apart, construct, found]
    | @below _ _ next _ apart unrecorded leads present other =>
      have way := destination?_next leads present
      unfold offer?
      obtain plain | unrecorded := unrecorded
      · simp [apart, plain, way, other]
      · simp [apart, unrecorded, way, other]

/-- The first offer along a chain. -/
theorem firstOffer?_eq_findSome? (child : String) (chain : List (String × Block)) :
    firstOffer? target ends start child chain =
      (stages child chain).findSome? fun stage =>
        offer? target ends start stage.1 stage.2 := by
  induction chain generalizing child with
  | nil => rfl
  | cons ancestor above ih =>
    rw [firstOffer?, ih, stages, stages, List.map_cons, List.zip_cons_cons, List.findSome?_cons]
    cases offer? target ends start child ancestor <;> rfl

/-- A search finds what the first ancestor offers that offers anything. -/
theorem enclosing?_eq_some_iff :
    enclosing? target ends start = some node ↔
      ∃ before stage after,
        stages start (ancestors target start) = before ++ stage :: after ∧
          (∀ earlier ∈ before, ∀ other, ¬ Offers target ends start earlier other) ∧
            Offers target ends start stage node := by
  rw [enclosing?, firstOffer?_eq_findSome?, List.findSome?_eq_some_iff]
  simp only [offer?_eq_some_iff, Option.eq_none_iff_forall_ne_some, ne_eq]
  constructor
  · rintro ⟨before, stage, after, whole, offers, none⟩
    exact ⟨before, stage, after, whole, none, offers⟩
  · rintro ⟨before, stage, after, whole, none, offers⟩
    exact ⟨before, stage, after, whole, offers, none⟩

/-- What a search finds is offered by an ancestor. -/
theorem exists_offers_of_enclosing? (found : enclosing? target ends start = some node) :
    ∃ child, ∃ ancestor ∈ ancestors target start,
      Offers target ends start (child, ancestor) node := by
  obtain ⟨before, ⟨child, ancestor⟩, after, whole, -, offers⟩ := enclosing?_eq_some_iff.mp found
  exact ⟨child, ancestor, (List.of_mem_zip (whole ▸ List.mem_append_cons_self)).2, offers⟩

/-- A search finds the recorded end of another construct or another block. -/
theorem cases_of_enclosing? (found : enclosing? target ends start = some node) :
    (∃ id block kind, id ≠ start ∧ target.block? id = some block ∧
        block.control? = some kind ∧ ends.lookup id = some node) ∨
      ∃ id, id ≠ start ∧ target.hasBlock id = true ∧ node = .ofBlock id := by
  obtain ⟨child, ancestor, inside, offers⟩ := exists_offers_of_enclosing? found
  obtain ⟨unmet, present⟩ := Above.of_mem (parentChain_ancestors target start) inside
  have apart : ancestor.1 ≠ start := fun same => unmet (List.mem_singleton.mpr same)
  cases offers with
  | recorded _ construct found =>
    obtain ⟨kind, control⟩ := Option.isSome_iff_exists.mp construct
    exact .inl ⟨_, _, kind, apart, present, control, found⟩
  | below _ _ _ there other => exact .inr ⟨_, other, there, rfl⟩

end

end ScriptChart.Flow
