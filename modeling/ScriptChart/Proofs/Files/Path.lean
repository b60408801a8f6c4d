import ScriptChart.Files.Path

/-!
# What a file is called

The stem of a file is its name up to the last dot in it. A dot that nothing stands before ends no
stem, and a path that leads to no file by name has an empty stem.

## Main definitions

* `IsStem`: what a file is called without its extension.

## Main results

* `cutAtFirst?_eq_some_iff`: where a text is cut.
* `isStem_iff`: the stem is determined.
-/

namespace ScriptChart.Text

theorem cutAtFirst?_eq_some_iff {mark : Char} {text before after : List Char} :
    cutAtFirst? mark text = some (before, after) ↔
      text = before ++ mark :: after ∧ mark ∉ before := by
  induction text generalizing before after with
  | nil => simp [cutAtFirst?]
  | cons c rest ih =>
    by_cases here : c = mark
    · cases before with
      | nil => simp [cutAtFirst?, here]
      | cons first more =>
        have apart : ¬ (c :: rest = first :: more ++ mark :: after ∧ mark ∉ first :: more) := by
          rintro ⟨whole, outside⟩
          exact outside (here ▸ (List.cons.inj whole).1 ▸ List.mem_cons_self)
        simpa [cutAtFirst?, here] using apart
    · simp only [cutAtFirst?, if_neg here, Option.map_eq_some_iff, Prod.exists, Prod.mk.injEq, ih]
      constructor
      · rintro ⟨before', after', ⟨rfl, apart⟩, rfl, rfl⟩
        simp [apart, Ne.symm here]
      · rintro ⟨whole, apart⟩
        cases before with
        | nil => exact absurd (List.cons.inj whole).1 here
        | cons first more =>
          obtain ⟨rfl, rfl⟩ := List.cons.inj whole
          exact ⟨more, after, ⟨rfl, fun inside => apart (List.mem_cons_of_mem _ inside)⟩, rfl, rfl⟩

end ScriptChart.Text

namespace ScriptChart.Files

open ScriptChart.Text

/-- What the file that a path leads to is called without its extension. -/
inductive IsStem (path : String) : String → Prop
  | nameless (unnamed : fileName? path = none) : IsStem path ""
  /-- Nothing stands before the last dot. -/
  | whole {name : String} (named : fileName? path = some name)
      (bare : ∀ before after : String, name = before ++ "." ++ after → '.' ∉ after.toList →
        before = "") : IsStem path name
  /-- The name is cut at the last dot. -/
  | cut {before after : String} (named : fileName? path = some (before ++ "." ++ after))
      (last : '.' ∉ after.toList) (present : before ≠ "") : IsStem path before

/-- A name is cut at its last dot if it is cut at the first one when read from its end. -/
theorem cutAtFirst?_reverse_iff {name before after : String} :
    cutAtFirst? '.' name.toList.reverse = some (after.toList.reverse, before.toList.reverse) ↔
      name = before ++ "." ++ after ∧ '.' ∉ after.toList := by
  rw [cutAtFirst?_eq_some_iff, List.reverse_eq_iff, ← String.toList_inj]
  simp

/-- A name is whole if nothing stands before its last dot. -/
theorem splitName_fst_of_bare {name : String}
    (bare : ∀ before after : String, name = before ++ "." ++ after → '.' ∉ after.toList →
      before = "") : (splitName name).1 = name := by
  unfold splitName
  split
  · rfl
  · rfl
  · rename_i extension stem present found
    have cut : cutAtFirst? '.' name.toList.reverse =
        some ((String.ofList extension.reverse).toList.reverse,
          (String.ofList stem.reverse).toList.reverse) := by simpa using found
    obtain ⟨whole, last⟩ := cutAtFirst?_reverse_iff.mp cut
    have empty := congrArg String.toList (bare _ _ whole last)
    exact (present (by simpa using empty)).elim

theorem splitName_fst_append {before after : String} (last : '.' ∉ after.toList)
    (present : before ≠ "") : (splitName (before ++ "." ++ after)).1 = before := by
  have cut : cutAtFirst? '.' (before ++ "." ++ after).toList.reverse =
      some (after.toList.reverse, before.toList.reverse) :=
    cutAtFirst?_reverse_iff.mpr ⟨rfl, last⟩
  have filled : before.toList.reverse ≠ [] := by simpa using present
  obtain ⟨first, more, reversed⟩ := List.exists_cons_of_ne_nil filled
  rw [splitName, cut, reversed]
  simp [← reversed]

/-- There is just one stem. -/
theorem isStem_iff {path name : String} : IsStem path name ↔ stem path = name := by
  constructor
  · intro stems
    cases stems with
    | nameless unnamed => simp [stem, unnamed]
    | whole named bare => simp [stem, named, splitName_fst_of_bare bare]
    | cut named last present => simp [stem, named, splitName_fst_append last present]
  · rintro rfl
    cases named : fileName? path with
    | none => simpa [stem, named] using IsStem.nameless named
    | some name =>
      have same : stem path = (splitName name).1 := by simp [stem, named]
      by_cases bare : ∀ before after : String, name = before ++ "." ++ after →
          '.' ∉ after.toList → before = ""
      · rw [same, splitName_fst_of_bare bare]
        exact .whole named bare
      · simp only [Classical.not_forall] at bare
        obtain ⟨before, after, rfl, last, present⟩ := bare
        rw [same, splitName_fst_append last present]
        exact .cut named last present

end ScriptChart.Files
