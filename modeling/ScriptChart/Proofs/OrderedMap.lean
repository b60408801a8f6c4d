import Mathlib.Data.List.Forall2
import Mathlib.Data.List.Induction
import ScriptChart.OrderedMap

/-!
# Maps read from lists

A map that is read from a list of entries keeps its names in the order in which they first appear in
the list, each with the value that stands last under it. Leaving out all entries of some names
before the list is read leaves out these names of the map. Values that are selected or converted
are found where the values were from which they come.

## Main results

* `mapM_eq_some_iff`: a list that is converted.
* `OrderedMap.names_ofList`, `OrderedMap.get?_ofList`: the map that is read from a list.
* `OrderedMap.entries_ofList_filter`: a list from which names are left out.
* `OrderedMap.names_filterMap`, `OrderedMap.get?_filterMap`: values that are selected.
* `OrderedMap.mapM?_eq_none_iff`, `OrderedMap.get?_mapM?`: values that are converted.
-/

namespace ScriptChart

/-- A list is converted if each of its items is. -/
theorem mapM_eq_some_iff {α β : Type} {convert : α → Option β} {items : List α}
    {results : List β} :
    items.mapM convert = some results ↔
      List.Forall₂ (fun item result => convert item = some result) items results := by
  induction items generalizing results with
  | nil => cases results <;> simp
  | cons item items ih => cases results <;> simp [List.mapM_cons, Option.bind_eq_some_iff, ih]

namespace Entries

variable {α β : Type}

/-- What is kept of the entries by their names is stored in, or not. -/
theorem filter_put (keep : String → Bool) (name : String) (value : α)
    (entries : List (String × α)) :
    (put name value entries).filter (fun entry => keep entry.1) =
      if keep name then put name value (entries.filter fun entry => keep entry.1)
      else entries.filter fun entry => keep entry.1 := by
  induction entries with
  | nil => cases kept : keep name <;> simp [put, kept]
  | cons entry rest ih =>
    by_cases here : entry.1 = name
    · cases kept : keep name <;> simp [put, here, kept]
    · cases kept : keep name <;> cases first : keep entry.1 <;>
        simp [put, here, kept, first, ih]

theorem names_filterMap (select : α → Option β) (entries : List (String × α)) :
    (entries.filterMap fun entry => (select entry.2).map (entry.1, ·)).map Prod.fst =
      (entries.filter fun entry => (select entry.2).isSome).map Prod.fst := by
  induction entries with
  | nil => rfl
  | cons entry rest ih => cases chosen : select entry.2 <;> simp [chosen, ih]

theorem mapM?_eq_none_iff {convert : α → Option β} {entries : List (String × α)} :
    mapM? convert entries = none ↔ ∃ entry ∈ entries, convert entry.2 = none := by
  induction entries with
  | nil => simp [mapM?]
  | cons entry rest ih =>
    simp only [List.mem_cons, exists_eq_or_imp, ← ih, mapM?]
    cases first : convert entry.2 <;> cases later : mapM? convert rest <;> simp

theorem lookup_mapM? {convert : α → Option β} {entries : List (String × α)}
    {converted : List (String × β)} (done : mapM? convert entries = some converted)
    (name : String) : converted.lookup name = (entries.lookup name).bind convert := by
  induction entries generalizing converted with
  | nil =>
    obtain rfl : [] = converted := Option.some.inj done
    rfl
  | cons entry rest ih =>
    obtain ⟨key, stored⟩ := entry
    simp only [mapM?, Option.bind_eq_bind, Option.pure_def, Option.bind_eq_some_iff,
      Option.some.injEq] at done
    obtain ⟨value, first, values, later, rfl⟩ := done
    by_cases here : name = key
    · subst here
      simp [first]
    · rw [lookup_cons_of_ne here, lookup_cons_of_ne here, ih later]

end Entries

namespace OrderedMap

variable {α β : Type}

/-! ### Reading a list -/

theorem ofList_append_singleton (entries : List (String × α)) (entry : String × α) :
    ofList (entries ++ [entry]) = (ofList entries).insert entry.1 entry.2 := by
  ext1
  simp [ofList, insert, Entries.putAll]

/-- Names stand in the order in which they first appear. -/
theorem names_ofList (entries : List (String × α)) :
    (ofList entries).names = (entries.map Prod.fst).eraseDups := by
  induction entries using List.reverseRecOn with
  | nil => rfl
  | append_singleton entries entry ih =>
    rw [ofList_append_singleton, names_insert, ih, List.map_append, List.eraseDups_append]
    by_cases known : entry.1 ∈ entries.map Prod.fst
    · rw [if_pos (List.mem_eraseDups.mpr known)]
      simp [List.removeAll, known]
    · rw [if_neg (mt List.mem_eraseDups.mp known)]
      simp [List.removeAll, known, List.eraseDups_cons]

/-- Under a name stands its last value. -/
theorem get?_ofList (entries : List (String × α)) (name : String) :
    (ofList entries).get? name = entries.reverse.lookup name := by
  induction entries using List.reverseRecOn with
  | nil => rfl
  | append_singleton entries entry ih =>
    rw [ofList_append_singleton, get?_insert, ih, List.reverse_append, List.reverse_singleton,
      List.singleton_append]
    obtain ⟨key, value⟩ := entry
    by_cases here : name = key
    · simp [here]
    · rw [if_neg here, Entries.lookup_cons_of_ne here]

/-- Names that are left out of a list are left out of the map. -/
theorem entries_ofList_filter (keep : String → Bool) (entries : List (String × α)) :
    (ofList (entries.filter fun entry => keep entry.1)).entries =
      (ofList entries).entries.filter fun entry => keep entry.1 := by
  induction entries using List.reverseRecOn with
  | nil => rfl
  | append_singleton entries entry ih =>
    rw [ofList_append_singleton, insert, Entries.filter_put, List.filter_append, ← ih]
    cases kept : keep entry.1 with
    | true =>
      have alone : [entry].filter (fun entry => keep entry.1) = [entry] :=
        List.filter_cons_of_pos kept
      rw [alone, ofList_append_singleton, if_pos rfl]
      rfl
    | false => simp [kept]

/-! ### Selecting and converting values -/

theorem get?_of_mem {m : OrderedMap α} {entry : String × α} (inside : entry ∈ m.entries) :
    m.get? entry.1 = some entry.2 :=
  (m.get?_eq_some_iff entry.1 entry.2).mpr inside

theorem get?_filterMap (m : OrderedMap α) (select : α → Option β) (name : String) :
    (m.filterMap select).get? name = (m.get? name).bind select := by
  ext value
  rw [get?_eq_some_iff, Option.bind_eq_some_iff]
  simp only [filterMap, List.mem_filterMap, Option.map_eq_some_iff, Prod.mk.injEq,
    get?_eq_some_iff]
  constructor
  · rintro ⟨⟨key, stored⟩, inside, chosen, selected, rfl, rfl⟩
    exact ⟨stored, inside, selected⟩
  · rintro ⟨stored, inside, selected⟩
    exact ⟨(name, stored), inside, value, selected, rfl, rfl⟩

/-- The names whose value is selected are kept in their order. -/
theorem names_filterMap (m : OrderedMap α) (select : α → Option β) :
    (m.filterMap select).names =
      m.names.filter fun name => ((m.get? name).bind select).isSome := by
  have same : m.entries.filter (fun entry => ((m.get? entry.1).bind select).isSome) =
      m.entries.filter fun entry => (select entry.2).isSome := by
    refine List.filter_congr fun entry inside => ?_
    rw [get?_of_mem inside, Option.bind_some]
  calc (m.filterMap select).names
      = (m.entries.filter fun entry => (select entry.2).isSome).map Prod.fst :=
        Entries.names_filterMap select m.entries
    _ = (m.entries.filter fun entry => ((m.get? entry.1).bind select).isSome).map Prod.fst := by
        rw [same]
    _ = m.names.filter fun name => ((m.get? name).bind select).isSome := by
        rw [names, List.filter_map]
        rfl

theorem entries_mapM? (m : OrderedMap α) (convert : α → Option β) :
    (m.mapM? convert).map entries = Entries.mapM? convert m.entries := by
  unfold mapM?
  split <;> simp_all

theorem mapM?_eq_none_iff {m : OrderedMap α} {convert : α → Option β} :
    m.mapM? convert = none ↔ ∃ entry ∈ m.entries, convert entry.2 = none := by
  rw [← Entries.mapM?_eq_none_iff, ← entries_mapM?, Option.map_eq_none_iff]

theorem entries_of_mapM? {m : OrderedMap α} {convert : α → Option β} {converted : OrderedMap β}
    (done : m.mapM? convert = some converted) :
    Entries.mapM? convert m.entries = some converted.entries := by
  rw [← entries_mapM?, done, Option.map_some]

theorem get?_mapM? {m : OrderedMap α} {convert : α → Option β} {converted : OrderedMap β}
    (done : m.mapM? convert = some converted) (name : String) :
    converted.get? name = (m.get? name).bind convert :=
  Entries.lookup_mapM? (entries_of_mapM? done) name

theorem names_mapM? {m : OrderedMap α} {convert : α → Option β} {converted : OrderedMap β}
    (done : m.mapM? convert = some converted) : converted.names = m.names :=
  Entries.names_mapM? (entries_of_mapM? done)

end OrderedMap

end ScriptChart
