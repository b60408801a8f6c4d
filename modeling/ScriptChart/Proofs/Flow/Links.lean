import Mathlib.Data.List.Perm.Subperm
import Mathlib.Logic.Relation
import ScriptChart.Flow.Node

/-!
# Following links

Control goes on from a block along the links that are followed, and what can be reached that way
is what a script consists of. A block that lies in a branch of a construct is tied to the node in
which that construct ends: this is where control goes on when the blocks of the branch run out.

In a well-linked target the block that a link leads to names the block that it comes from as its
parent, and no two links of a block lead to the same block. The blocks that are reached from a
block without a parent then form a tree.

## Main definitions

* `Follows`: one link from a block to the next.
* `Leads`: any number of followed links.
* `Reached`: the blocks that are reached from a block, with the number of links and the node in
  which the innermost construct around the block ends.
* `WellLinked`: parents agree with links.

## Main results

* `Reached.unique`: in a well-linked target a block is reached from one entry at most, along one
  number of links and within one innermost construct.
* `WellLinked.not_leads_of_follows`: nothing leads back.
* `WellLinked.not_leads_both`: what two links of a block lead to is disjoint.
-/

namespace ScriptChart.Flow

open ScriptChart.Project Relation

/-- Control goes on from a block along a link to another block. -/
def Follows (target : Target) (id : String) (link : Link) (next : String) : Prop :=
  ∃ block, target.block? id = some block ∧ link ∈ followedLinks block ∧
    destination? target block link = some next

/-- Control goes on from a block to another one along any number of links. -/
def Leads (target : Target) : String → String → Prop :=
  ReflTransGen fun id next => ∃ link, Follows target id link next

/-- The node in which the innermost construct ends around the block that a link leads to. Along
`next` it stays what it is around the block itself; a branch ends in the block's own node. -/
def joinAlong (id : String) (block : Block) (link : Link) (join : Option Node) : Option Node :=
  match link with
  | .next => join
  | _ => block.control?.map fun kind => ⟨id, joinRole kind⟩

/-- The blocks that are reached from a start around which a construct may end in a node: each with
the number of links to it and the node in which the innermost construct around it ends. -/
inductive Reached (target : Target) (start : String) (around : Option Node) :
    String → Nat → Option Node → Prop
  | start : Reached target start around start 0 around
  | follow {id : String} {count : Nat} {join : Option Node} {block : Block} {link : Link}
      {next : String} (before : Reached target start around id count join)
      (present : target.block? id = some block) (followed : link ∈ followedLinks block)
      (leads : destination? target block link = some next) :
      Reached target start around next (count + 1) (joinAlong id block link join)

/-- Parents agree with links: a block that a link leads to has the block it comes from as its
parent, and different links of a block do not lead to the same block. -/
structure WellLinked (target : Target) : Prop where
  parent_eq : ∀ {id next : String} {block child : Block} {link : Link},
    target.block? id = some block → destination? target block link = some next →
      target.block? next = some child → child.parent = some id
  link_eq : ∀ {id next : String} {block : Block} {link other : Link},
    target.block? id = some block → destination? target block link = some next →
      destination? target block other = some next → link = other

/-- All places of a block that name where control goes on. -/
def allLinks : List Link := [.next, .substack, .substack2]

theorem mem_allLinks (link : Link) : link ∈ allLinks := by
  cases link <;> simp [allLinks]

theorem wellLinked_iff {target : Target} :
    WellLinked target ↔
      ∀ entry ∈ target.blocks.entries, ∀ link ∈ allLinks,
        ∀ next ∈ destination? target entry.2 link,
          (∀ child ∈ target.block? next, child.parent = some entry.1) ∧
            ∀ other ∈ allLinks, destination? target entry.2 other = some next → link = other := by
  constructor
  · rintro linked ⟨id, block⟩ inside link - next leads
    have present : target.block? id = some block :=
      (target.blocks.get?_eq_some_iff id block).mpr inside
    exact ⟨fun child found => linked.parent_eq present leads found,
      fun other _ alike => linked.link_eq present leads alike⟩
  · -- a block that is found under an id is stored under this id
    intro checked
    constructor
    · intro id next block child link present leads found
      have inside := (target.blocks.get?_eq_some_iff id block).mp present
      exact (checked _ inside link (mem_allLinks link) next leads).1 child found
    · intro id next block link other present leads alike
      have inside := (target.blocks.get?_eq_some_iff id block).mp present
      exact (checked _ inside link (mem_allLinks link) next leads).2 other (mem_allLinks other)
        alike

instance (target : Target) : Decidable (WellLinked target) :=
  decidable_of_iff _ wellLinked_iff.symm

/-! ### Blocks and links -/

section

variable {target : Target} {id next : String} {block : Block} {link : Link}

theorem exists_block_of_hasBlock (present : target.hasBlock id = true) :
    ∃ block, target.block? id = some block :=
  Option.isSome_iff_exists.mp present

theorem hasBlock_of_block? (found : target.block? id = some block) : target.hasBlock id = true :=
  Option.isSome_iff_exists.mpr ⟨block, found⟩

/-- A dangling link names a block that is not there. -/
theorem hasBlock_of_dangling? (dangles : dangling? target block link = some id) :
    target.hasBlock id = false := by
  simp only [dangling?, Option.filter_eq_some_iff, Bool.not_eq_true'] at dangles
  exact dangles.2

theorem exists_block_of_destination? (leads : destination? target block link = some next) :
    ∃ child, target.block? next = some child :=
  exists_block_of_hasBlock (hasBlock_of_destination? leads)

theorem named?_of_destination? (leads : destination? target block link = some next) :
    named? block link = some next := by
  simp only [destination?, Option.filter_eq_some_iff] at leads
  exact leads.1

/-- Only a construct has branches that are followed. -/
theorem control?_ne_none_of_mem_followedLinks (followed : link ∈ followedLinks block)
    (branch : link ≠ .next) : block.control? ≠ none := by
  intro plain
  simp only [followedLinks, plain, List.mem_singleton] at followed
  exact branch followed

/-- Within a branch the innermost construct is that of the block itself. -/
theorem joinAlong_of_ne_next (id : String) (followed : link ∈ followedLinks block)
    (branch : link ≠ .next) (join : Option Node) : ∃ kind, block.control? = some kind ∧
      joinAlong id block link join = some ⟨id, joinRole kind⟩ := by
  obtain ⟨kind, control⟩ := Option.ne_none_iff_exists'.mp
    (control?_ne_none_of_mem_followedLinks followed branch)
  refine ⟨kind, control, ?_⟩
  cases link with
  | next => exact absurd rfl branch
  | substack | substack2 => simp [joinAlong, control]

theorem nodup_followedLinks (block : Block) : (followedLinks block).Nodup := by
  unfold followedLinks
  split <;> decide

theorem nodup_entryPoints (target : Target) : target.entryPoints.Nodup :=
  List.Pairwise.sublist (List.Sublist.map Prod.fst List.filter_sublist) target.blocks.distinct

end

/-! ### Reaching blocks -/

namespace Follows

variable {target : Target} {id next : String} {link : Link}

theorem leads (follows : Follows target id link next) : Leads target id next :=
  .single ⟨link, follows⟩

theorem hasBlock (follows : Follows target id link next) : target.hasBlock next = true := by
  obtain ⟨block, -, -, leads⟩ := follows
  exact hasBlock_of_destination? leads

end Follows

namespace Reached

variable {target : Target} {start id : String} {around join : Option Node} {count : Nat}

theorem leads (reached : Reached target start around id count join) : Leads target start id := by
  induction reached with
  | start => exact .refl
  | follow _ present followed leads ih => exact ih.tail ⟨_, _, present, followed, leads⟩

theorem hasBlock (reached : Reached target start around id count join)
    (present : target.hasBlock start = true) : target.hasBlock id = true := by
  cases reached with
  | start => exact present
  | follow _ _ _ leads => exact hasBlock_of_destination? leads

theorem trans {last : String} {more : Nat} {inner : Option Node}
    (reached : Reached target start around id count join)
    (beyond : Reached target id join last more inner) :
    Reached target start around last (count + more) inner := by
  induction beyond with
  | start => exact reached
  | follow _ present followed leads ih => exact .follow ih present followed leads

end Reached

/-- A way that is not empty begins with a followed link. -/
theorem reached_succ_iff {target : Target} {start id : String} {around join : Option Node}
    {count : Nat} :
    Reached target start around id (count + 1) join ↔
      ∃ block link next, target.block? start = some block ∧ link ∈ followedLinks block ∧
        destination? target block link = some next ∧
          Reached target next (joinAlong start block link around) id count join := by
  constructor
  · -- induction on the number of links, since a way grows at its far end
    intro reached
    induction count generalizing id join with
    | zero =>
      obtain - | ⟨before, present, followed, leads⟩ := reached
      cases before
      exact ⟨_, _, _, present, followed, leads, .start⟩
    | succ count ih =>
      obtain - | ⟨before, present, followed, leads⟩ := reached
      obtain ⟨block, link, next, first, chosen, goes, rest⟩ := ih before
      exact ⟨block, link, next, first, chosen, goes, .follow rest present followed leads⟩
  · rintro ⟨block, link, next, present, followed, leads, rest⟩
    have one : Reached target start around next (0 + 1) (joinAlong start block link around) :=
      .follow .start present followed leads
    simpa [Nat.add_comm] using one.trans rest

theorem Leads.exists_reached {target : Target} {start id : String} (leads : Leads target start id)
    (around : Option Node) : ∃ count join, Reached target start around id count join := by
  induction leads with
  | refl => exact ⟨0, around, .start⟩
  | tail _ step ih =>
    obtain ⟨count, join, reached⟩ := ih
    obtain ⟨link, block, present, followed, leads⟩ := step
    exact ⟨count + 1, _, .follow reached present followed leads⟩

/-! ### Well-linked targets -/

/-- A block without a parent, such as a script begins with. -/
def IsRoot (target : Target) (id : String) : Prop :=
  ∃ block, target.block? id = some block ∧ block.parent = none

theorem IsRoot.hasBlock {target : Target} {id : String} (root : IsRoot target id) :
    target.hasBlock id = true :=
  hasBlock_of_block? root.choose_spec.1

theorem isRoot_of_mem_entryPoints {target : Target} {id : String}
    (entry : id ∈ target.entryPoints) : IsRoot target id := by
  simp only [Target.entryPoints, List.mem_map, List.mem_filter, Bool.and_eq_true,
    Option.isNone_iff_eq_none] at entry
  obtain ⟨⟨name, block⟩, ⟨inside, -, orphan⟩, rfl⟩ := entry
  exact ⟨block, (target.blocks.get?_eq_some_iff name block).mpr inside, orphan⟩

namespace WellLinked

variable {target : Target} (linked : WellLinked target)
include linked

theorem not_isRoot_of_follows {id next : String} {link : Link}
    (follows : Follows target id link next) : ¬ IsRoot target next := by
  rintro ⟨child, found, orphan⟩
  obtain ⟨block, present, -, leads⟩ := follows
  have owned := linked.parent_eq present leads found
  simp [orphan] at owned

/-- A block is followed from one block only, along one link. -/
theorem follows_unique {id other next : String} {link link' : Link}
    (follows : Follows target id link next) (follows' : Follows target other link' next) :
    id = other ∧ link = link' := by
  obtain ⟨block, present, -, leads⟩ := follows
  obtain ⟨block', present', -, leads'⟩ := follows'
  obtain ⟨child, found⟩ := exists_block_of_destination? leads
  have parent := linked.parent_eq present leads found
  have parent' := linked.parent_eq present' leads' found
  obtain rfl : id = other := Option.some.inj (parent.symm.trans parent')
  obtain rfl : block = block' := Option.some.inj (present.symm.trans present')
  exact ⟨rfl, linked.link_eq present leads leads'⟩

end WellLinked

/-- In a well-linked target a block is reached from one entry at most, along one number of links
and within one innermost construct. -/
theorem Reached.unique {target : Target} (linked : WellLinked target) {entry entry' id : String}
    (root : IsRoot target entry) (root' : IsRoot target entry') {count count' : Nat}
    {join join' : Option Node} (reached : Reached target entry none id count join)
    (reached' : Reached target entry' none id count' join') :
    entry = entry' ∧ count = count' ∧ join = join' := by
  -- induction on one way: the other one ends with the same link, as a block is followed from one
  -- block only, and neither can be longer, as no link leads to an entry
  induction reached generalizing count' join' with
  | start =>
    cases reached' with
    | start => exact ⟨rfl, rfl, rfl⟩
    | follow _ present followed leads =>
      exact absurd root (linked.not_isRoot_of_follows ⟨_, present, followed, leads⟩)
  | follow _ present followed leads ih =>
    cases reached' with
    | start => exact absurd root' (linked.not_isRoot_of_follows ⟨_, present, followed, leads⟩)
    | follow before' present' followed' leads' =>
      obtain ⟨rfl, rfl⟩ := linked.follows_unique ⟨_, present, followed, leads⟩
        ⟨_, present', followed', leads'⟩
      obtain ⟨rfl, rfl, rfl⟩ := ih before'
      obtain rfl := Option.some.inj (present.symm.trans present')
      exact ⟨rfl, rfl, rfl⟩

namespace WellLinked

variable {target : Target} (linked : WellLinked target) {entry id : String} {count : Nat}
  {join : Option Node} (root : IsRoot target entry)
  (reached : Reached target entry none id count join)
include linked root reached

/-- What a block leads to does not lead back to it. -/
theorem not_leads_of_follows {next : String} {link : Link} (follows : Follows target id link next) :
    ¬ Leads target next id := by
  intro back
  obtain ⟨block, present, followed, leads⟩ := follows
  have after := Reached.follow reached present followed leads
  -- going round once more would reach the block along another number of links
  obtain ⟨more, inner, beyond⟩ := back.exists_reached (joinAlong id block link join)
  have again := reached.unique linked root root (after.trans beyond)
  omega

/-- What a block leads to by different links is disjoint. -/
theorem not_leads_both {left right last : String} {link link' : Link}
    (follows : Follows target id link left) (follows' : Follows target id link' right)
    (different : left ≠ right) (first : Leads target left last) : ¬ Leads target right last := by
  intro second
  -- one of the two would lead to the other, and so lead back to the block above both
  have apart : ∀ {one two : String} {link link' : Link}, Follows target id link one →
      Follows target id link' two → one ≠ two → ¬ Leads target one two := by
    intro one two link link' here there unequal leads
    obtain same | ⟨before, leads, step⟩ := leads.cases_tail
    · exact unequal same.symm
    · obtain ⟨between, step⟩ := step
      obtain ⟨rfl, -⟩ := linked.follows_unique step there
      exact linked.not_leads_of_follows root reached here leads
  -- ways up are unique, so of two blocks above the same one, one is above the other
  have functional : Relator.RightUnique
      (Function.swap fun id next => ∃ link, Follows target id link next) := by
    rintro next one two ⟨_, here⟩ ⟨_, there⟩
    exact (linked.follows_unique here there).1
  rcases ReflTransGen.total_of_right_unique functional (reflTransGen_swap.mpr first)
    (reflTransGen_swap.mpr second) with up | up
  · exact apart follows' follows different.symm (reflTransGen_swap.mp up)
  · exact apart follows follows' different (reflTransGen_swap.mp up)

/-- No more links lead to a block than there are blocks. -/
theorem count_lt_size : count < target.blocks.size := by
  -- the blocks on the way are all different
  have way : ∃ ids : List String, ids.length = count + 1 ∧ ids.Nodup ∧
      ∀ other ∈ ids, target.hasBlock other = true ∧ Leads target other id := by
    induction reached with
    | start => exact ⟨[entry], by simp, by simp, by simp [root.hasBlock, Leads, ReflTransGen.refl]⟩
    | @follow id count join block link next before present followed leads ih =>
      obtain ⟨ids, length, distinct, inside⟩ := ih
      have follows : Follows target id link next := ⟨block, present, followed, leads⟩
      refine ⟨next :: ids, by simp [length], List.nodup_cons.mpr ⟨fun met => ?_, distinct⟩, ?_⟩
      · exact linked.not_leads_of_follows root before follows (inside next met).2
      · intro other member
        obtain rfl | member := List.mem_cons.mp member
        · exact ⟨follows.hasBlock, .refl⟩
        · exact ⟨(inside other member).1, (inside other member).2.trans follows.leads⟩
  obtain ⟨ids, length, distinct, inside⟩ := way
  -- and so there are no more of them than names
  have within : ids ⊆ target.blocks.names := fun other member =>
    (target.blocks.contains_iff_mem_names other).mp (inside other member).1
  have bounded := (List.subperm_of_subset distinct within).length_le
  simp only [OrderedMap.names, List.length_map] at bounded
  simp only [OrderedMap.size]
  omega

end WellLinked

/-! ### A target with two scripts -/

/-- An endless loop around a conditional, and a repetition below which a block is missing. -/
def sampleTarget : Target where
  name := "Cat"
  blocks := .ofList [
    ("flag", { opcode := "event_whenflagclicked", next := some "loop", topLevel := true }),
    ("loop", { opcode := "control_forever", parent := some "flag",
               inputs := .ofList [(substack, .block "step")] }),
    ("step", { opcode := "motion_movesteps", parent := some "loop", next := some "check" }),
    ("check", { opcode := "control_if", parent := some "step",
                inputs := .ofList [(substack, .block "hide")] }),
    ("hide", { opcode := "looks_hide", parent := some "check" }),
    ("key", { opcode := "event_whenkeypressed", next := some "often", topLevel := true }),
    ("often", { opcode := "control_repeat", parent := some "key", next := some "gone",
                inputs := .ofList [(substack, .block "turn")] }),
    ("turn", { opcode := "motion_turnright", parent := some "often" })]

theorem wellLinked_sampleTarget : WellLinked sampleTarget := by decide

theorem mem_zipIdx_sampleTarget : ("flag", 0) ∈ sampleTarget.entryPoints.zipIdx := by
  decide

theorem reached_loop_sampleTarget : Reached sampleTarget "flag" none "loop" 1 none :=
  .follow .start rfl (show Link.next ∈ _ by decide) rfl

/-- The conditional is reached within the endless loop. -/
theorem reached_check_sampleTarget :
    Reached sampleTarget "flag" none "check" 3 (some ⟨"loop", .again⟩) := by
  have step : Reached sampleTarget "flag" none "step" 2 (some ⟨"loop", .again⟩) :=
    .follow reached_loop_sampleTarget rfl (show Link.substack ∈ _ by decide) rfl
  exact .follow step rfl (show Link.next ∈ _ by decide) rfl

end ScriptChart.Flow
