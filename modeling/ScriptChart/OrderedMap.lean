/-!
# Ordered maps

A finite map from names to values that remembers the order in which the names first appeared.
Blocks, fields, inputs, broadcasts and phrases are all kept this way, because the order of a
project file is visible in the diagram drawn from it.

Storing a value under a name that is already present replaces the value and keeps the name's
place, so of two members with one name the later value is kept at the earlier place.

## Main definitions

* `OrderedMap`: a list of entries whose names are pairwise distinct.
* `OrderedMap.insert`, `OrderedMap.ofList`: storing one entry, or all entries of a list in turn.
* `OrderedMap.filterMap`, `OrderedMap.mapM?`: keeping or converting values, all or nothing.

## Main results

* `OrderedMap.get?_insert`: what a look-up sees after an insertion.
* `OrderedMap.names_insert`: which names are present after an insertion, and in which order.
-/

namespace ScriptChart

namespace Entries

/-- Stores a value in a list of entries: in place when the name is present, else at the end. -/
def put {α : Type} (name : String) (value : α) : List (String × α) → List (String × α)
  | [] => [(name, value)]
  | entry :: rest =>
    if entry.1 = name then (name, value) :: rest else entry :: put name value rest

/-- Stores the entries of a list in turn. -/
def putAll {α : Type} (start entries : List (String × α)) : List (String × α) :=
  entries.foldl (fun kept entry => put entry.1 entry.2 kept) start

/-- Converts every value, or fails if one of them cannot be converted. -/
def mapM? {α β : Type} (convert : α → Option β) :
    List (String × α) → Option (List (String × β))
  | [] => some []
  | entry :: rest => do
    let value ← convert entry.2
    let values ← mapM? convert rest
    return (entry.1, value) :: values

theorem names_put {α : Type} (name : String) (value : α) (entries : List (String × α)) :
    (put name value entries).map Prod.fst =
      if name ∈ entries.map Prod.fst then entries.map Prod.fst
      else entries.map Prod.fst ++ [name] := by
  induction entries with
  | nil => simp [put]
  | cons entry rest ih =>
    by_cases h : entry.1 = name
    · simp [put, h]
    · have h' : ¬ name = entry.1 := fun e => h e.symm
      by_cases m : name ∈ rest.map Prod.fst
      · simp only [put, h, if_false, List.map_cons, ih, m, if_true, List.mem_cons, or_true]
      · simp only [put, h, if_false, List.map_cons, ih, m, List.mem_cons, h', or_self,
          List.cons_append]

theorem nodup_put {α : Type} (name : String) (value : α) {entries : List (String × α)}
    (distinct : (entries.map Prod.fst).Nodup) :
    ((put name value entries).map Prod.fst).Nodup := by
  rw [names_put]
  split
  · exact distinct
  · rename_i absent
    rw [List.nodup_append]
    refine ⟨distinct, by simp, ?_⟩
    intro a inside b single
    rw [List.mem_singleton] at single
    intro same
    exact absent (single ▸ same ▸ inside)

theorem nodup_putAll {α : Type} (entries : List (String × α)) {start : List (String × α)}
    (distinct : (start.map Prod.fst).Nodup) :
    ((putAll start entries).map Prod.fst).Nodup := by
  induction entries generalizing start with
  | nil => exact distinct
  | cons entry rest ih => exact ih (nodup_put entry.1 entry.2 distinct)

theorem lookup_cons_of_ne {α : Type} {asked name : String} (different : asked ≠ name) (value : α)
    (rest : List (String × α)) :
    ((name, value) :: rest).lookup asked = rest.lookup asked := by
  simp [List.lookup_cons, beq_eq_false_iff_ne.mpr different]

theorem lookup_put {α : Type} (name : String) (value : α) (entries : List (String × α))
    (asked : String) :
    (put name value entries).lookup asked =
      if asked = name then some value else entries.lookup asked := by
  induction entries with
  | nil =>
    by_cases h : asked = name
    · simp [put, h]
    · simp [put, h, lookup_cons_of_ne h]
  | cons entry rest ih =>
    obtain ⟨key, old⟩ := entry
    by_cases h : key = name
    · subst h
      by_cases g : asked = key
      · simp [put, g]
      · simp [put, g, lookup_cons_of_ne g]
    · by_cases g : asked = key
      · subst g
        simp [put, h]
      · simp [put, h, lookup_cons_of_ne g, ih]

theorem names_mapM? {α β : Type} {convert : α → Option β} {entries : List (String × α)}
    {converted : List (String × β)} (done : mapM? convert entries = some converted) :
    converted.map Prod.fst = entries.map Prod.fst := by
  induction entries generalizing converted with
  | nil => simp [mapM?] at done; simp [← done]
  | cons entry rest ih =>
    simp only [mapM?, Option.bind_eq_bind, Option.pure_def, Option.bind_eq_some_iff,
      Option.some.injEq] at done
    obtain ⟨value, _, values, tail, rfl⟩ := done
    simp [ih tail]

end Entries

/-- A finite map that keeps its names in order of first appearance. -/
structure OrderedMap (α : Type) where
  entries : List (String × α)
  distinct : (entries.map Prod.fst).Nodup := by simp
deriving Repr

namespace OrderedMap

variable {α β : Type}

/-- The map without entries. -/
def empty : OrderedMap α where
  entries := []

instance : EmptyCollection (OrderedMap α) := ⟨empty⟩

instance : Inhabited (OrderedMap α) := ⟨empty⟩

@[ext]
theorem ext {left right : OrderedMap α} (same : left.entries = right.entries) : left = right := by
  cases left; cases right; cases same; rfl

instance [DecidableEq α] : DecidableEq (OrderedMap α) := fun left right =>
  if same : left.entries = right.entries then isTrue (ext same)
  else isFalse fun equal => same (congrArg entries equal)

/-- The names, in order of first appearance. -/
def names (m : OrderedMap α) : List String := m.entries.map Prod.fst

/-- The number of entries. -/
def size (m : OrderedMap α) : Nat := m.entries.length

/-- Whether there is no entry. -/
def isEmpty (m : OrderedMap α) : Bool := m.entries.isEmpty

/-- The value stored under a name. -/
def get? (m : OrderedMap α) (name : String) : Option α := m.entries.lookup name

/-- Whether a name is present. -/
def contains (m : OrderedMap α) (name : String) : Bool := (m.get? name).isSome

/-- Stores a value: in place when the name is present, else at the end. -/
def insert (m : OrderedMap α) (name : String) (value : α) : OrderedMap α where
  entries := Entries.put name value m.entries
  distinct := Entries.nodup_put name value m.distinct

/-- Stores the entries of a list in turn, so the last value of a name wins at its first place. -/
def ofList (entries : List (String × α)) : OrderedMap α where
  entries := Entries.putAll [] entries
  distinct := Entries.nodup_putAll entries (by simp)

/-- Keeps and converts the values that `select` accepts and drops all other entries. -/
def filterMap (m : OrderedMap α) (select : α → Option β) : OrderedMap β where
  entries := m.entries.filterMap fun entry => (select entry.2).map fun value => (entry.1, value)
  distinct := by
    refine List.Pairwise.sublist ?_ m.distinct
    have keep : ∀ entries : List (String × α),
        ((entries.filterMap fun entry =>
          (select entry.2).map fun value => (entry.1, value)).map Prod.fst).Sublist
            (entries.map Prod.fst) := by
      intro entries
      induction entries with
      | nil => simp
      | cons entry rest ih =>
        cases chosen : select entry.2 with
        | none => simpa [List.filterMap_cons, chosen] using ih.cons entry.1
        | some value => simpa [List.filterMap_cons, chosen] using ih.cons_cons entry.1
    exact keep m.entries

/-- Converts every value and keeps the order, or fails if one of them cannot be converted. -/
def mapM? (m : OrderedMap α) (convert : α → Option β) : Option (OrderedMap β) :=
  match done : Entries.mapM? convert m.entries with
  | none => none
  | some converted => some ⟨converted, Entries.names_mapM? done ▸ m.distinct⟩

/-! ### Look-up and order -/

@[simp]
theorem get?_insert (m : OrderedMap α) (name : String) (value : α) (asked : String) :
    (m.insert name value).get? asked = if asked = name then some value else m.get? asked :=
  Entries.lookup_put name value m.entries asked

theorem names_insert (m : OrderedMap α) (name : String) (value : α) :
    (m.insert name value).names = if name ∈ m.names then m.names else m.names ++ [name] :=
  Entries.names_put name value m.entries

theorem nodup_names (m : OrderedMap α) : m.names.Nodup := m.distinct

theorem contains_iff_mem_names (m : OrderedMap α) (name : String) :
    m.contains name = true ↔ name ∈ m.names := by
  obtain ⟨entries, distinct⟩ := m
  simp only [contains, get?, names]
  clear distinct
  induction entries with
  | nil => simp
  | cons entry rest ih =>
    obtain ⟨key, value⟩ := entry
    by_cases h : name = key
    · simp [h]
    · rw [Entries.lookup_cons_of_ne h, ih]
      simp [h]

theorem get?_eq_some_iff (m : OrderedMap α) (name : String) (value : α) :
    m.get? name = some value ↔ (name, value) ∈ m.entries := by
  obtain ⟨entries, distinct⟩ := m
  simp only [get?]
  induction entries with
  | nil => simp
  | cons entry rest ih =>
    obtain ⟨key, stored⟩ := entry
    simp only [List.map_cons, List.nodup_cons] at distinct
    by_cases h : name = key
    · subst h
      constructor
      · intro found
        simp only [List.lookup_cons_self, Option.some.injEq] at found
        simp [found]
      · intro inside
        rcases List.mem_cons.mp inside with equal | later
        · simp [Prod.mk.inj equal]
        · exact absurd (List.mem_map_of_mem (f := Prod.fst) later) distinct.1
    · rw [Entries.lookup_cons_of_ne h, ih distinct.2]
      simp [h]

end OrderedMap

end ScriptChart
