import ScriptChart.Project.Basic

/-!
# Blocks that are mentioned

A block of a target is found by its id only, and the blocks themselves mention the ids that are
looked up: the block below, the block above, and the blocks that inputs name. So two targets that
hold the same blocks under some ids cannot be told apart from there when these blocks mention no
other ids. The order of the blocks does not matter, and neither does a block that nobody mentions.

## Main definitions

* `InputValue.Names`, `Block.Mentions`: the ids in an input and in a block.
* `Target.AgreesOn`: two targets hold the same blocks under some ids, which lead to no other ids.

## Main results

* `Target.agreesOn_of_perm`: targets whose blocks stand in another order agree.
* `Target.agreesOn_of_unmentioned`: a block that nobody mentions makes no difference to the others.
-/

namespace ScriptChart

theorem OrderedMap.get?_congr {α : Type} {first second : OrderedMap α} {name : String}
    (same : ∀ value, (name, value) ∈ first.entries ↔ (name, value) ∈ second.entries) :
    first.get? name = second.get? name := by
  apply Option.ext
  intro value
  rw [first.get?_eq_some_iff, second.get?_eq_some_iff]
  exact same value

namespace Project

/-- An input names a block, by itself or in the value that was typed into it. -/
def InputValue.Names (id : String) : InputValue → Prop
  | .literal _ => False
  | .nested inner => inner.Names id
  | .block other => other = id
  | .broadcast _ _ => False

/-- A block mentions an id: for the block below it, for the block above it, or in an input. -/
inductive Block.Mentions (block : Block) (id : String) : Prop
  | next (below : block.next = some id)
  | parent (above : block.parent = some id)
  | input {name : String} {value : InputValue} (held : block.inputs.get? name = some value)
      (names : value.Names id)

instance InputValue.decidableNames (id : String) :
    (value : InputValue) → Decidable (value.Names id)
  | .literal _ => inferInstanceAs (Decidable False)
  | .nested inner => decidableNames id inner
  | .block other => inferInstanceAs (Decidable (other = id))
  | .broadcast _ _ => inferInstanceAs (Decidable False)

theorem Block.mentions_iff {block : Block} {id : String} :
    block.Mentions id ↔ block.next = some id ∨ block.parent = some id ∨
      ∃ input ∈ block.inputs.entries, input.2.Names id := by
  constructor
  · rintro (below | above | ⟨held, names⟩)
    · exact .inl below
    · exact .inr (.inl above)
    · exact .inr (.inr ⟨_, (OrderedMap.get?_eq_some_iff _ _ _).mp held, names⟩)
  · rintro (below | above | ⟨input, inside, names⟩)
    · exact .next below
    · exact .parent above
    · exact .input ((OrderedMap.get?_eq_some_iff _ _ _).mpr inside) names

instance (block : Block) (id : String) : Decidable (block.Mentions id) :=
  decidable_of_iff _ Block.mentions_iff.symm

namespace Target

/-- Two targets of one name and with the same messages hold the same blocks under the ids that are
known, and these blocks mention known ids only. -/
structure AgreesOn (known : String → Prop) (target other : Target) : Prop where
  name : other.name = target.name
  broadcasts : other.broadcasts = target.broadcasts
  block? : ∀ {id}, known id → other.block? id = target.block? id
  closed : ∀ {id next : String} {block : Block}, known id → target.block? id = some block →
    block.Mentions next → known next

variable {known : String → Prop} {target other : Target} {id : String}

theorem AgreesOn.hasBlock (agree : AgreesOn known target other) (inside : known id) :
    other.hasBlock id = target.hasBlock id :=
  congrArg Option.isSome (agree.block? inside)

/-- Targets whose blocks stand in another order agree on all ids. -/
theorem agreesOn_of_perm (target : Target) {blocks : OrderedMap Block}
    (same : blocks.entries.Perm target.blocks.entries) :
    AgreesOn (fun _ => True) target { target with blocks := blocks } where
  name := rfl
  broadcasts := rfl
  block? _ := OrderedMap.get?_congr fun _ => same.mem_iff
  closed _ _ _ := trivial

/-- A block that is not mentioned by those around it makes no difference to their ids. -/
theorem agreesOn_of_unmentioned (target : Target) {blocks : OrderedMap Block} {block : Block}
    {front back : List (String × Block)} (before : target.blocks.entries = front ++ back)
    (after : blocks.entries = front ++ (id, block) :: back)
    (unmentioned : ∀ entry ∈ target.blocks.entries, ¬ entry.2.Mentions id) :
    AgreesOn (· ≠ id) target { target with blocks := blocks } where
  name := rfl
  broadcasts := rfl
  block? {asked} apart := OrderedMap.get?_congr fun value => by
    simp [before, after, apart]
  closed {asked next found} _ present mentions := by
    rintro rfl
    have inside := (target.blocks.get?_eq_some_iff asked found).mp present
    exact unmentioned _ inside mentions

/-- A block with which no script begins does not change with which blocks scripts begin. -/
theorem entryPoints_eq_of_not_mem (target : Target) {blocks : OrderedMap Block} {block : Block}
    {front back : List (String × Block)} (before : target.blocks.entries = front ++ back)
    (after : blocks.entries = front ++ (id, block) :: back)
    (idle : id ∉ ({ target with blocks := blocks } : Target).entryPoints) :
    ({ target with blocks := blocks } : Target).entryPoints = target.entryPoints := by
  simp only [entryPoints, before, after, List.filter_append, List.map_append, List.filter_cons]
    at idle ⊢
  split at idle
  · simp at idle
  · next skipped => rw [if_neg skipped]

end Target

end Project

end ScriptChart
