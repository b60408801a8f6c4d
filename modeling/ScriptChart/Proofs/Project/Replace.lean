import ScriptChart.Project.Basic

/-!
# A block in the place of another

A block of a target is replaced by storing another one under its id. The order of the blocks stays,
and so do all other blocks. Scripts begin with the same blocks when the new block begins a script
just if the old one does.
-/

namespace ScriptChart

/-- What is kept of some entries are the same names, when the new value is kept just if the old one
is. -/
theorem Entries.map_fst_filter_put {α : Type} {keep : String × α → Bool} {name : String}
    {old value : α} {entries : List (String × α)} (held : entries.lookup name = some old)
    (same : keep (name, value) = keep (name, old)) :
    ((put name value entries).filter keep).map Prod.fst = (entries.filter keep).map Prod.fst := by
  induction entries with
  | nil => simp at held
  | cons entry rest ih =>
    obtain ⟨key, stored⟩ := entry
    by_cases here : key = name
    · -- the new value stands in the place of the old one
      subst here
      rw [List.lookup_cons_self, Option.some.injEq] at held
      subst held
      cases kept : keep (key, stored) <;> simp [put, same, kept]
    · rw [lookup_cons_of_ne (Ne.symm here)] at held
      cases kept : keep (key, stored) <;> simp [put, here, kept, ih held]

namespace Project.Target

/-- A target with a block in the place of the one with its id. -/
def withBlock (target : Target) (id : String) (block : Block) : Target :=
  { target with blocks := target.blocks.insert id block }

variable {target : Target} {id : String} {block other : Block}

theorem block?_withBlock (asked : String) :
    (target.withBlock id other).block? asked =
      if asked = id then some other else target.block? asked :=
  OrderedMap.get?_insert _ _ _ _

variable (present : target.block? id = some block)
include present

theorem hasBlock_withBlock (asked : String) :
    (target.withBlock id other).hasBlock asked = target.hasBlock asked := by
  change ((target.withBlock id other).block? asked).isSome = (target.block? asked).isSome
  rw [block?_withBlock]
  split
  · next here => rw [here, present, Option.isSome_some, Option.isSome_some]
  · rfl

theorem names_withBlock : (target.withBlock id other).blocks.names = target.blocks.names := by
  have inside : id ∈ target.blocks.names :=
    (target.blocks.contains_iff_mem_names id).mp (Option.isSome_iff_exists.mpr ⟨block, present⟩)
  exact (OrderedMap.names_insert _ _ _).trans (if_pos inside)

theorem size_withBlock : (target.withBlock id other).blocks.size = target.blocks.size := by
  have same : (target.withBlock id other).blocks.names = target.blocks.names :=
    names_withBlock present
  simpa [OrderedMap.names, OrderedMap.size] using congrArg List.length same

theorem isEmpty_withBlock :
    (target.withBlock id other).blocks.isEmpty = target.blocks.isEmpty := by
  have same : (target.withBlock id other).blocks.entries.length = target.blocks.entries.length :=
    size_withBlock present
  rw [OrderedMap.isEmpty, OrderedMap.isEmpty, Bool.eq_iff_iff, List.isEmpty_iff_length_eq_zero,
    List.isEmpty_iff_length_eq_zero, same]

/-- Scripts begin with the same blocks. -/
theorem entryPoints_withBlock (top : other.topLevel = block.topLevel)
    (parent : other.parent = block.parent) :
    (target.withBlock id other).entryPoints = target.entryPoints := by
  refine Entries.map_fst_filter_put present ?_
  rw [top, parent]

end Project.Target

end ScriptChart
