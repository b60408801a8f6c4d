import ScriptChart.Proofs.Label.Circular

/-!
# Values rendered without a trail

Rendered plainly, a value is worded from the values that are shown of its block, rendered plainly in
turn: nothing is remembered, nothing is counted, and nothing is cut. On a value that leads back to
itself this never ends, so it is told by rules, which word a block as any expansion does
(`Resolver.expandVia_eq_worded`). There is at most one plain rendering of a value.

An expression has a plain rendering: each of its blocks sits in one slot, and so the blocks below a
value form a tree. There the trail makes no difference, as long as the tree is no deeper than
expansions may nest. No reference in it comes to a block that was expanded before, since the other
reference to that block would stand at another place, and the depth of the trail is the depth in the
tree.

## Main definitions

* `Resolver.Plain`: the plain rendering of values.
* `Target.Proper`: the blocks under a value form a tree of bounded depth.

## Main results

* `Resolver.Plain.unique`: there is at most one plain rendering.
* `Resolver.Runs.plain`: a rendering in which nothing is cut is the plain one.
* `Target.Proper.place_unique`: each block of an expression is named at one place.
* `Resolver.plain_input`: an expression is rendered plainly.
-/

namespace ScriptChart

open ScriptChart.Phrase ScriptChart.Project ScriptChart.Label

namespace Label.Resolver

/-! ### Plain renderings -/

/-- The texts of values one after the other, and the faults, when no trail is kept. -/
inductive Plain (r : Resolver) : List InputValue → List String → List Diagnostic → Prop
  | done : Plain r [] [] []
  | literal {text : String} {rest : List InputValue} {texts : List String}
      {faults : List Diagnostic} (later : Plain r rest texts faults) :
      Plain r (.literal text :: rest) (text :: texts) faults
  | nested {inner : InputValue} {rest : List InputValue} {texts : List String}
      {faults : List Diagnostic} (same : Plain r (inner :: rest) texts faults) :
      Plain r (.nested inner :: rest) texts faults
  | broadcast {given : String} {id : Option String} {rest : List InputValue}
      {texts : List String} {faults : List Diagnostic} (later : Plain r rest texts faults) :
      Plain r (.broadcast given id :: rest) ((r.broadcast given id).value :: texts)
        ((r.broadcast given id).diagnostics ++ faults)
  | missing {id : String} {rest : List InputValue} {texts : List String}
      {faults : List Diagnostic} (absent : r.target.block? id = none)
      (later : Plain r rest texts faults) :
      Plain r (.block id :: rest) (id :: texts) (.missingBlock r.target.name id :: faults)
  /-- A block is worded from its fields and from the plain texts of the inputs that it shows. -/
  | block {id : String} {block : Block} {rest : List InputValue} {shown texts : List String}
      {noted faults : List Diagnostic} (present : r.target.block? id = some block)
      (inside : Plain r (shownValues block) shown noted) (later : Plain r rest texts faults) :
      Plain r (.block id :: rest) (r.worded block (r.fields block).value shown :: texts)
        ((r.fields block).diagnostics ++ noted ++ faults)

/-- There is at most one plain rendering. -/
theorem Plain.unique {r : Resolver} {values : List InputValue} {texts texts' : List String}
    {faults faults' : List Diagnostic} (plain : r.Plain values texts faults)
    (plain' : r.Plain values texts' faults') : texts = texts' ∧ faults = faults' := by
  -- induction on the first rendering: the value in front decides by which rule the second one goes
  induction plain generalizing texts' faults' with
  | done =>
    cases plain'
    exact ⟨rfl, rfl⟩
  | literal _ ih =>
    cases plain' with
    | literal later =>
      obtain ⟨rfl, rfl⟩ := ih later
      exact ⟨rfl, rfl⟩
  | nested _ ih =>
    cases plain' with
    | nested same => exact ih same
  | broadcast _ ih =>
    cases plain' with
    | broadcast later =>
      obtain ⟨rfl, rfl⟩ := ih later
      exact ⟨rfl, rfl⟩
  | missing absent _ ih =>
    cases plain' with
    | missing _ later =>
      obtain ⟨rfl, rfl⟩ := ih later
      exact ⟨rfl, rfl⟩
    | block present => cases absent.symm.trans present
  | block present _ _ ihInside ih =>
    cases plain' with
    | missing absent => cases absent.symm.trans present
    | block present' inside later =>
      cases present.symm.trans present'
      obtain ⟨rfl, rfl⟩ := ihInside inside
      obtain ⟨rfl, rfl⟩ := ih later
      exact ⟨rfl, rfl⟩

end Label.Resolver

namespace Label

/-- A query as a value: a block is asked for as if it sat in an input slot. -/
def Query.value : Query → InputValue
  | .input value => value
  | .reference id _ => .block id

/-- A block that is asked for is the one that the target has under its id. -/
def Query.Present (target : Target) : Query → Prop
  | .input _ => True
  | .reference id block => target.block? id = some block

theorem values_slots (id : String) (block : Block) :
    ((slots id block).map fun question => question.query.value) = shownValues block := by
  rw [slots, List.map_map]
  exact List.zipIdx_map_fst _ _

theorem present_slots {target : Target} {id : String} {block : Block} :
    ∀ question ∈ slots id block, question.query.Present target := by
  intro question inside
  obtain ⟨shown, -, rfl⟩ := List.mem_map.mp inside
  trivial

/-- A rendering in which nothing is cut is the plain one. -/
theorem Resolver.Runs.plain {r : Resolver} {asked : List Asked} {trail : Trail} {account : Account}
    (runs : r.Runs asked trail account)
    (present : ∀ question ∈ asked, question.query.Present r.target)
    (expands : ∀ visit ∈ account.visits, visit.expands = true) :
    r.Plain (asked.map fun question => question.query.value) account.texts account.faults := by
  -- induction on the rules: where one of them cuts, there is a visit that does not expand its block
  induction runs with
  | done => exact .done
  | literal _ ih => exact .literal (ih (List.forall_mem_cons.mp present).2 expands)
  | broadcast _ ih => exact .broadcast (ih (List.forall_mem_cons.mp present).2 expands)
  | missing absent _ ih => exact .missing absent (ih (List.forall_mem_cons.mp present).2 expands)
  | nested _ ih =>
    have later := (List.forall_mem_cons.mp present).2
    exact .nested (ih (List.forall_mem_cons.mpr ⟨trivial, later⟩) expands)
  | found found _ ih =>
    have later := (List.forall_mem_cons.mp present).2
    exact ih (List.forall_mem_cons.mpr ⟨found, later⟩) expands
  | cut deep _ _ =>
    have expanded := expands _ List.mem_cons_self
    rw [Visit.expands_eq_false_of_le deep] at expanded
    cases expanded
  | refuse _ known _ _ =>
    have expanded := expands _ List.mem_cons_self
    rw [Visit.expands_eq_false_of_mem known] at expanded
    cases expanded
  | expand _ _ _ _ ihInside ih =>
    obtain ⟨found, later⟩ := List.forall_mem_cons.mp present
    obtain ⟨-, expands⟩ := List.forall_mem_cons.mp expands
    obtain ⟨inside, behind⟩ := List.forall_mem_append.mp expands
    refine .block found ?_ (ih later behind)
    rw [← values_slots]
    exact ihInside present_slots inside

end Label

namespace Project

/-! ### Expressions -/

/-- The block that an input names, if any. -/
def InputValue.named? : InputValue → Option String
  | .literal _ => none
  | .nested inner => inner.named?
  | .block id => some id
  | .broadcast _ _ => none

theorem InputValue.names_iff {value : InputValue} {id : String} :
    value.Names id ↔ value.named? = some id := by
  induction value with
  | literal text | broadcast given id => simp [Names, named?]
  | nested inner ih => exact ih
  | block other => simp [Names, named?]

namespace Target

variable {target : Target} {value : InputValue}

/-- An input of a block under a value names a block. -/
def NamesIn (target : Target) (value : InputValue) (owner key id : String) : Prop :=
  ∃ levels block held, target.Under value levels owner ∧ target.block? owner = some block ∧
    block.inputs.get? key = some held ∧ held.Names id

/-- The blocks under a value form an expression: none of them sits in two slots, none of them lies
deeper than expansions may nest, and no list of arguments repeats one. As a block that leads back to
itself lies under the value at any depth, there is no such block. -/
structure Proper (target : Target) (value : InputValue) : Prop where
  once : ∀ {id block owner key owner' key'}, target.block? id = some block →
    target.NamesIn value owner key id → target.NamesIn value owner' key' id →
      owner = owner' ∧ key = key'
  shallow : ∀ {levels id block}, target.Under value levels id → target.block? id = some block →
    levels < expansionLimit
  arguments : ∀ {levels id block}, target.Under value levels id → target.block? id = some block →
    ∀ mutation ∈ block.mutation, (argumentIds mutation).Nodup

/-- A value leads to nothing but what the block that it names leads to. -/
theorem Under.leads {levels : Nat} {id next : String} (above : target.Under value levels next)
    (names : value.Names id) : Relation.ReflTransGen target.Refers id next := by
  induction above with
  | named names' =>
    rw [InputValue.names_iff] at names names'
    cases names.symm.trans names'
    exact .refl
  | through _ refers ih => exact ih.tail refers

/-- What is shown at a place stands in a slot. -/
theorem NamesAt.exists_namesIn {owner id : String} {index : Nat}
    (names : target.NamesAt value (.shown owner index) id) :
    ∃ levels block key, target.Under value levels owner ∧ target.block? owner = some block ∧
      (shownKeys block)[index]? = some key ∧ target.NamesIn value owner key id := by
  cases names with
  | shown above present listed names =>
    obtain ⟨held, inside, names⟩ := exists_get?_of_names_valueAt names
    exact ⟨_, _, _, above, present, listed, _, _, held, above, present, inside, names⟩

/-- What a block leads to lies deeper than it. -/
theorem Under.transGen {levels : Nat} {id next : String} (above : target.Under value levels id)
    (leads : Relation.TransGen target.Refers id next) :
    ∃ deeper, levels < deeper ∧ target.Under value deeper next := by
  induction leads with
  | single refers => exact ⟨levels + 1, by omega, .through above refers⟩
  | tail _ refers ih =>
    obtain ⟨deeper, below, above⟩ := ih
    exact ⟨deeper + 1, by omega, .through above refers⟩

namespace Proper

variable (proper : target.Proper value)
include proper

/-- No block of an expression depends on itself. -/
theorem acyclic {levels : Nat} {id : String} (above : target.Under value levels id) :
    ¬ Relation.TransGen target.Refers id id := by
  intro circular
  obtain ⟨next, ⟨block, -, -, present, -, -⟩, -⟩ := Relation.TransGen.head'_iff.mp circular
  -- once around the cycle is one level deeper at least
  have deep : ∀ least, ∃ deeper, least ≤ deeper ∧ target.Under value deeper id := by
    intro least
    induction least with
    | zero => exact ⟨levels, Nat.zero_le _, above⟩
    | succ least ih =>
      obtain ⟨deeper, reached, above⟩ := ih
      obtain ⟨further, below, above⟩ := above.transGen circular
      exact ⟨further, by omega, above⟩
  obtain ⟨deeper, reached, above⟩ := deep expansionLimit
  exact absurd (proper.shallow above present) (Nat.not_lt.mpr reached)

/-- A block that the value names is not named again below. -/
theorem not_namesAt_shown {owner id : String} {index : Nat} (names : value.Names id) :
    ¬ target.NamesAt value (.shown owner index) id := by
  intro again
  have within : (Place.shown owner index).Within target id := by
    cases again with
    | shown above _ _ _ => exact .shown (above.leads names)
  exact proper.acyclic (.named names) (transGen_of_within again within)

/-- Each block of an expression is named at one place. -/
theorem place_unique {place place' : Place} {id : String} {block : Block}
    (present : target.block? id = some block) (names : target.NamesAt value place id)
    (names' : target.NamesAt value place' id) : place = place' := by
  cases place with
  | outside =>
    cases place' with
    | outside => rfl
    | shown owner' index' =>
      cases names with
      | outside named => exact absurd names' (proper.not_namesAt_shown named)
  | shown owner index =>
    cases place' with
    | outside =>
      cases names' with
      | outside named => exact absurd names (proper.not_namesAt_shown named)
    | shown owner' index' =>
      obtain ⟨levels, block, key, above, held, listed, slot⟩ := names.exists_namesIn
      obtain ⟨-, block', key', -, held', listed', slot'⟩ := names'.exists_namesIn
      obtain ⟨rfl, rfl⟩ := proper.once present slot slot'
      cases held.symm.trans held'
      -- one slot is shown at one place, unless it is listed twice as an argument
      have distinct := nodup_shownKeys (proper.arguments above held)
      have within := (List.getElem?_eq_some_iff.mp listed).1
      rw [(List.getElem?_inj within distinct).mp (listed.trans listed'.symm)]

end Proper

end Target

end Project

namespace Label.Resolver

variable {r : Resolver} {value : InputValue}

/-- All blocks of an expression are expanded. -/
theorem Runs.expands_of_proper {account : Account}
    (runs : r.Runs [⟨.outside, .input value⟩] .start account) (proper : r.target.Proper value) :
    ∀ visit ∈ account.visits, visit.expands = true := by
  intro visit visited
  obtain ⟨⟨block, present⟩, -, under⟩ :=
    runs.placed (List.forall_mem_singleton.mpr placed_outside) visit visited
  refine Visit.expands_iff.mpr ⟨proper.shallow under present, fun known => ?_⟩
  obtain ⟨place, apart, names, names'⟩ := runs.exists_places visited known
  exact apart (proper.place_unique present names names')

/-- An expression that is rendered with a new trail has the text and the faults of the plain
rendering, and nothing in it is called circular or too deep. -/
theorem plain_input (r : Resolver) (value : InputValue) (proper : r.target.Proper value) :
    (∀ text faults,
      r.Plain [value] [text] faults ↔ (r.input value).freshly = ⟨text, faults⟩) ∧
    ∀ name id, .circularReference name id ∉ (r.input value).freshly.diagnostics ∧
      .depthLimit name id ∉ (r.input value).freshly.diagnostics := by
  obtain ⟨account, runs⟩ := r.exists_runs [⟨.outside, .input value⟩] .start
  have expands := runs.expands_of_proper proper
  have plain := runs.plain (by simp [Query.Present]) expands
  obtain ⟨text, texts, fresh⟩ := runs.freshly_answer
  rw [texts] at plain
  have uncut : account.faults.filter Diagnostic.isCut = [] := by
    rw [runs.filter_faults, List.filterMap_eq_nil_iff]
    exact fun visit visited => Visit.cut?_eq_none_iff.mpr (expands visit visited)
  rw [answer] at fresh
  rw [fresh]
  constructor
  · intro other faults
    constructor
    · intro plain'
      obtain ⟨same, rfl⟩ := plain.unique plain'
      cases same
      rfl
    · intro same
      cases same
      exact plain
  · intro name id
    have clean := List.filter_eq_nil_iff.mp uncut
    exact ⟨fun told => clean _ told rfl, fun told => clean _ told rfl⟩

end Label.Resolver

/-! ### Expressions by their layers -/

namespace Project.Target

variable {target : Target} {value : InputValue}

/-- The keys of the inputs of a block that name another block, with these blocks. -/
def namings (target : Target) (id : String) : List (String × String) :=
  ((target.block? id).toList.flatMap fun block => block.inputs.entries).filterMap fun input =>
    input.2.named?.map (Prod.mk input.1)

/-- The blocks that a value leads to through so many others, as often as they are named. -/
def layer (target : Target) (value : InputValue) : Nat → List String
  | 0 => value.named?.toList
  | levels + 1 => (layer target value levels).flatMap fun id => (target.namings id).map Prod.snd

/-- The slots of some blocks that hold another block, with these blocks. -/
def slotted (target : Target) (ids : List String) : List ((String × String) × String) :=
  ids.flatMap fun id => (target.namings id).map fun naming => ((id, naming.1), naming.2)

theorem mem_namings {id key next : String} :
    (key, next) ∈ target.namings id ↔ ∃ block held, target.block? id = some block ∧
      block.inputs.get? key = some held ∧ held.Names next := by
  simp only [namings, List.mem_filterMap, List.mem_flatMap, Option.mem_toList,
    Option.map_eq_some_iff, Prod.mk.injEq, OrderedMap.get?_eq_some_iff, InputValue.names_iff]
  constructor
  · rintro ⟨⟨name, held⟩, ⟨block, present, inside⟩, other, names, rfl, rfl⟩
    exact ⟨block, held, present, inside, names⟩
  · rintro ⟨block, held, present, inside, names⟩
    exact ⟨(key, held), ⟨block, present, inside⟩, next, names, rfl, rfl⟩

theorem under_iff {levels : Nat} {id : String} :
    target.Under value levels id ↔ id ∈ target.layer value levels := by
  constructor
  · intro above
    induction above with
    | named names =>
      rw [InputValue.names_iff] at names
      simp [layer, names]
    | through _ refers ih =>
      obtain ⟨block, key, held, present, inside, names⟩ := refers
      have named := mem_namings.mpr ⟨block, held, present, inside, names⟩
      exact List.mem_flatMap.mpr ⟨_, ih, List.mem_map_of_mem named⟩
  · intro inside
    induction levels generalizing id with
    | zero =>
      simp only [layer, Option.mem_toList] at inside
      exact .named (InputValue.names_iff.mpr inside)
    | succ levels ih =>
      obtain ⟨owner, above, below⟩ := List.mem_flatMap.mp inside
      obtain ⟨naming, named, rfl⟩ := List.mem_map.mp below
      obtain ⟨block, held, present, slot, names⟩ := mem_namings.mp named
      exact .through (ih above) ⟨block, naming.1, held, present, slot, names⟩

/-- Below an empty layer there is nothing. -/
theorem layer_eq_nil {depth levels : Nat} (ends : target.layer value depth = [])
    (below : depth ≤ levels) : target.layer value levels = [] := by
  induction below with
  | refl => exact ends
  | step _ ih => simp [layer, ih]

/-- A value whose layers end within the limit is an expression if the blocks in them hold each block
in one slot only, and list no argument twice. -/
theorem proper_of_layer_eq_nil (depth : Nat) (bounded : depth ≤ expansionLimit)
    (ends : target.layer value depth = [])
    (once : ((target.slotted ((List.range depth).flatMap (target.layer value))).map Prod.snd).Nodup)
    (arguments : ∀ id ∈ (List.range depth).flatMap (target.layer value),
      ∀ block ∈ target.block? id, ∀ mutation ∈ block.mutation, (argumentIds mutation).Nodup) :
    target.Proper value := by
  have within {levels : Nat} {id : String} (above : target.Under value levels id) :
      levels < depth := by
    by_contra deep
    rw [under_iff, layer_eq_nil ends (Nat.not_lt.mp deep)] at above
    cases above
  have listed {levels : Nat} {id : String} (above : target.Under value levels id) :
      id ∈ (List.range depth).flatMap (target.layer value) :=
    List.mem_flatMap.mpr ⟨levels, List.mem_range.mpr (within above), under_iff.mp above⟩
  have slots {owner key id : String} (names : target.NamesIn value owner key id) :
      ((owner, key), id) ∈ target.slotted ((List.range depth).flatMap (target.layer value)) := by
    obtain ⟨levels, block, held, above, present, inside, names⟩ := names
    have named := mem_namings.mpr ⟨block, held, present, inside, names⟩
    exact List.mem_flatMap.mpr ⟨owner, listed above, List.mem_map.mpr ⟨_, named, rfl⟩⟩
  constructor
  · intro id block owner key owner' key' _ names names'
    have same := List.inj_on_of_nodup_map once (slots names) (slots names') rfl
    exact Prod.mk.inj (Prod.mk.inj same).1
  · exact fun above _ => Nat.lt_of_lt_of_le (within above) bounded
  · exact fun above present => arguments _ (listed above) _ present

end Project.Target

namespace Label

/-- A target with an expression that joins a sum and the call of a custom procedure. -/
def expressionResolver : Resolver where
  target :=
    { name := "Cat"
      blocks := .ofList
        [("join",
          { opcode := "operator_join"
            inputs := .ofList [("STRING1", .block "sum"), ("STRING2", .block "call")] }),
        ("sum",
          { opcode := "operator_add"
            inputs := .ofList [("NUM1", .block "score"), ("NUM2", .nested (.literal "1"))] }),
        ("score",
          { opcode := "data_variable"
            fields := .ofList [("VARIABLE", ⟨"score", none⟩)] }),
        ("call",
          { opcode := "procedures_call"
            inputs := .ofList [("a", .block "size")]
            mutation := some ⟨some " of %s", some "[\"a\"]"⟩ }),
        ("size", { opcode := "looks_size" })] }
  dictionary := .ofList [("OPERATOR_JOIN", "%1%2"), ("OPERATOR_ADD", "%1 + %2")]

theorem proper_expressionResolver :
    expressionResolver.target.Proper (.nested (.block "join")) :=
  Target.proper_of_layer_eq_nil 3 (by decide) (by decide +kernel) (by decide +kernel)
    (by decide +kernel)

/-- The expression is rendered as it is without a trail. -/
theorem plain_expressionResolver :
    expressionResolver.target.Proper (.nested (.block "join")) ∧
      expressionResolver.Plain [.nested (.block "join")] ["score + 1 of size"] [] := by
  have proper := proper_expressionResolver
  refine ⟨proper, (Resolver.plain_input _ _ proper).1 _ _ |>.mpr (Report.ext ?_ ?_)⟩
  · decide +kernel
  · decide +kernel

end Label

end ScriptChart
