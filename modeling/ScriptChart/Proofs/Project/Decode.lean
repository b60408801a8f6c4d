import ScriptChart.Chart.Basic
import ScriptChart.Project.Decode
import ScriptChart.Proofs.OrderedMap

/-!
# Loose reporters

The blocks of a target are read from a list of entries in which an id may stand several times; its
last value counts, at the place where it first stood. An entry that is not an object is a reporter
that lies loose on the canvas. It is dropped, so a text from which all loose entries are taken out
gives the same program. The other entries are all read, or none is.

## Main definitions

* `lastValue?`: the value that counts under an id.
* `Tree.changeMember`: a record of which one member is changed.
* `tidyProject`: a program as it is written, without the loose entries.

## Main results

* `decodeBlocks?_eq_none_iff`, `names_of_decodeBlocks?`, `get?_of_decodeBlocks?`: the blocks of a
  target.
* `membersOfTree?_changeMember`: what is read of a changed record.
* `ofTree?_tidyProject`: a program without its loose entries.
* `drops_loose_entries`: all of this for lists of entries and for whole texts.
-/

namespace ScriptChart

open ScriptChart.Json (Literal Tree Value)

namespace Project

/-! ### The blocks of a target -/

/-- The value that counts under an id. -/
def lastValue? (read : List (String × Value)) (id : String) : Option Value :=
  read.reverse.lookup id

section

variable {written : OrderedMap Value} {blocks : OrderedMap Block}

/-- The objects among the entries. -/
theorem get?_objects_eq_some_iff {id : String} {value : Value} :
    (written.filterMap fun value => if isObject value then some value else none).get? id =
        some value ↔
      written.get? id = some value ∧ isObject value := by
  rw [OrderedMap.get?_filterMap, Option.bind_eq_some_iff]
  simp only [Option.ite_none_right_eq_some, Option.some.injEq]
  constructor
  · rintro ⟨stored, found, object, rfl⟩
    exact ⟨found, object⟩
  · rintro ⟨found, object⟩
    exact ⟨value, found, object, rfl⟩

/-- Blocks cannot be read exactly if one of the objects among them is no block. -/
theorem decodeBlocks?_eq_none_iff :
    decodeBlocks? written = none ↔
      ∃ id value, written.get? id = some value ∧ isObject value ∧ Block.ofValue? value = none := by
  simp only [decodeBlocks?, OrderedMap.mapM?_eq_none_iff, ← OrderedMap.get?_eq_some_iff,
    Prod.exists, get?_objects_eq_some_iff, and_assoc]

theorem names_of_decodeBlocks? (decoded : decodeBlocks? written = some blocks) :
    blocks.names = written.names.filter fun id => (written.get? id).any isObject := by
  rw [OrderedMap.names_mapM? decoded, OrderedMap.names_filterMap]
  congr 1
  ext id
  cases written.get? id with
  | none => rfl
  | some value => cases object : isObject value <;> simp [object]

theorem get?_of_decodeBlocks? (decoded : decodeBlocks? written = some blocks) (id : String)
    (block : Block) :
    blocks.get? id = some block ↔
      ∃ value, written.get? id = some value ∧ isObject value ∧
        Block.ofValue? value = some block := by
  rw [OrderedMap.get?_mapM? decoded, Option.bind_eq_some_iff]
  simp only [get?_objects_eq_some_iff, and_assoc]

/-- Blocks are read from the objects among the entries. -/
theorem decodeBlocks?_of_filter {objects : OrderedMap Value}
    (kept : objects.entries = written.entries.filter fun entry => isObject entry.2) :
    decodeBlocks? objects = decodeBlocks? written := by
  unfold decodeBlocks?
  congr 1
  ext1
  simp only [OrderedMap.filterMap, kept, List.filterMap_filter]
  congr 1
  ext1 entry
  cases isObject entry.2 <;> simp

end

/-! ### Taking loose entries out of a text -/

/-- Whether a tree is an object. -/
def isObjectTree : Tree → Bool
  | .object _ => true
  | _ => false

/-- Whether the last of the members that have a name is an object. -/
def endsInObject (members : List (Literal × Tree)) (name : Option String) : Bool :=
  ((members.reverse.map fun member => (Literal.text? member.1, member.2)).lookup name).any
    isObjectTree

/-- The blocks of a target without the entries that are not objects. -/
def tidyBlocks : Tree → Tree
  | .object members =>
    .object (members.filter fun member => endsInObject members (Literal.text? member.1))
  | other => other

end Project

namespace Json

/-- Changes the value of a member if it has a name. -/
def changeNamed (name : String) (change : Tree → Tree) (member : Literal × Tree) :
    Literal × Tree :=
  if Literal.text? member.1 = some name then (member.1, change member.2) else member

/-- A record of which one member is changed. It is known by its name in an object and by its place
in an array. -/
def Tree.changeMember (name : String) (place : Nat) (change : Tree → Tree) : Tree → Tree
  | .object members => .object (members.map (changeNamed name change))
  | .array items => .array (items.modify place change)
  | .scalar value => .scalar value

end Json

namespace Project

/-- A target without the loose entries among its blocks. -/
def tidyTarget : Tree → Tree := Tree.changeMember "blocks" 2 tidyBlocks

/-- The targets of a program without the loose entries among their blocks. -/
def tidyTargets : Tree → Tree
  | .array items => .array (items.map tidyTarget)
  | other => other

/-- A program without the loose entries among the blocks of its targets. -/
def tidyProject : Tree → Tree := Tree.changeMember "targets" 0 tidyTargets

/-! ### Reading without loose entries -/

/-- A member is read as an entry. -/
def IsEntry (member : Literal × Tree) (entry : String × Value) : Prop :=
  Literal.text? member.1 = some entry.1 ∧
    Value.ofTree? (Json.depthLimit - blockNesting) member.2 = some entry.2

theorem blocksOfTree?_object_eq_some_iff {members : List (Literal × Tree)}
    {blocks : OrderedMap Block} :
    blocksOfTree? (.object members) = some blocks ↔
      ∃ read, List.Forall₂ IsEntry members read ∧
        decodeBlocks? (OrderedMap.ofList read) = some blocks := by
  have reads : IsEntry = fun member entry => (do
      let name ← Literal.text? member.1
      let value ← Value.ofTree? (Json.depthLimit - blockNesting) member.2
      return (name, value)) = some entry := by
    ext member ⟨id, value⟩
    simp [IsEntry, Option.bind_eq_some_iff]
  simp only [reads, ← mapM_eq_some_iff]
  exact Option.bind_eq_some_iff

theorem isObject_of_value? {scalar : Json.Scalar} {value : Value}
    (read : scalar.value? = some value) : isObject value = false := by
  cases scalar with
  | null | bool =>
    obtain rfl := Option.some.inj read
    rfl
  | numeral | string =>
    obtain ⟨_, -, rfl⟩ := Option.map_eq_some_iff.mp read
    rfl

/-- Objects, and nothing else, are read as objects. -/
theorem isObject_of_ofTree? {levels : Nat} {tree : Tree} {value : Value}
    (read : Value.ofTree? levels tree = some value) : isObject value = isObjectTree tree := by
  cases tree with
  | scalar scalar =>
    have single : scalar.value? = some value := by cases levels <;> exact read
    exact isObject_of_value? single
  | array items =>
    cases levels with
    | zero => cases read
    | succ levels =>
      obtain ⟨_, -, rfl⟩ := Option.map_eq_some_iff.mp read
      rfl
  | object members =>
    cases levels with
    | zero => cases read
    | succ levels =>
      obtain ⟨_, -, made⟩ := Option.bind_eq_some_iff.mp read
      obtain rfl := Option.some.inj made
      rfl

/-- What stands last under a name among the members is an object where it is one among the
entries. -/
theorem any_lookup_of_forall₂ {members : List (Literal × Tree)} {read : List (String × Value)}
    (related : List.Forall₂ IsEntry members read) (id : String) :
    ((members.map fun member => (Literal.text? member.1, member.2)).lookup (some id)).any
      isObjectTree = (read.lookup id).any isObject := by
  induction related with
  | nil => rfl
  -- a name that is not a text would not have been read, so names differ just if their texts do
  | @cons member entry members read isEntry _ ih =>
    obtain ⟨name, stored⟩ := entry
    rw [List.map_cons, isEntry.1]
    by_cases here : id = name
    · subst here
      simp [isObject_of_ofTree? isEntry.2]
    · have apart : some id ≠ some name := fun same => here (Option.some.inj same)
      rw [Entries.lookup_cons_of_ne here, ← ih]
      simp [List.lookup_cons, beq_eq_false_iff_ne.mpr apart]

theorem endsInObject_of_forall₂ {members : List (Literal × Tree)} {read : List (String × Value)}
    (related : List.Forall₂ IsEntry members read) (id : String) :
    endsInObject members (some id) = (lastValue? read id).any isObject :=
  any_lookup_of_forall₂ (List.forall₂_reverse_iff.mpr related) id

/-- Blocks are read as they are without the loose entries. -/
theorem blocksOfTree?_tidyBlocks {tree : Tree} {blocks : OrderedMap Block}
    (accepted : blocksOfTree? tree = some blocks) :
    blocksOfTree? (tidyBlocks tree) = some blocks := by
  cases tree with
  | scalar | array => cases accepted
  | object members =>
    obtain ⟨read, related, decoded⟩ := blocksOfTree?_object_eq_some_iff.mp accepted
    -- an entry stays just if the value that counts under its id is an object
    refine blocksOfTree?_object_eq_some_iff.mpr
      ⟨read.filter fun entry => (lastValue? read entry.1).any isObject, ?_, ?_⟩
    · refine List.rel_filter (fun member entry isEntry => ?_) related
      dsimp only
      rw [isEntry.1, endsInObject_of_forall₂ related]
    · rw [← decoded]
      refine decodeBlocks?_of_filter ?_
      rw [OrderedMap.entries_ofList_filter fun id => (lastValue? read id).any isObject]
      refine List.filter_congr fun entry inside => ?_
      rw [lastValue?, ← OrderedMap.get?_ofList, OrderedMap.get?_of_mem inside, Option.any_some]

/-! ### A changed record -/

/-- Changes the value of an entry if it has a name. -/
def changeEntry {α : Type} (name : String) (change : α → α) (entry : String × α) : String × α :=
  if entry.1 = name then (entry.1, change entry.2) else entry

theorem fst_changeEntry {α : Type} (name : String) (change : α → α) (entry : String × α) :
    (changeEntry name change entry).1 = entry.1 := by
  unfold changeEntry
  split <;> rfl

theorem lookup_map_changeEntry {α : Type} (name : String) (change : α → α)
    (entries : List (String × α)) (asked : String) :
    (entries.map (changeEntry name change)).lookup asked =
      if asked = name then (entries.lookup asked).map change else entries.lookup asked := by
  induction entries with
  | nil => simp
  | cons entry entries ih =>
    obtain ⟨key, value⟩ := entry
    by_cases here : asked = key
    · subst here
      by_cases named : asked = name <;> simp [changeEntry, named]
    · have changed : changeEntry name change (key, value) =
          (key, (changeEntry name change (key, value)).2) :=
        Prod.ext (fst_changeEntry name change (key, value)) rfl
      rw [List.map_cons, changed, Entries.lookup_cons_of_ne here, Entries.lookup_cons_of_ne here,
        ih]

/-- The known members of an object of which one is changed. -/
theorem map_lookup_changeEntry {α : Type} {names : List String} {name : String} {place : Nat}
    (distinct : names.Nodup) (there : names[place]? = some name) (change : α → α)
    (known : List (String × α)) :
    (names.map fun asked => (known.map (changeEntry name change)).lookup asked) =
      (names.map fun asked => known.lookup asked).modify place (Option.map change) := by
  refine List.ext_getElem? fun i => ?_
  rw [List.getElem?_map, List.getElem?_modify, List.getElem?_map]
  cases asked : names[i]? with
  | none => simp
  | some other =>
    have here : other = name ↔ place = i := by
      constructor
      · rintro rfl
        obtain ⟨within, -⟩ := List.getElem?_eq_some_iff.mp there
        exact (List.getElem?_inj within distinct).mp (there.trans asked.symm)
      · rintro rfl
        exact Option.some.inj (asked.symm.trans there)
    simp only [Option.map_some, lookup_map_changeEntry, here]
    split <;> rfl

/-- The members of an array of which one is changed, with the missing ones behind them. -/
theorem map_some_modify_append {α : Type} (items : List α) (place : Nat) (change : α → α)
    (missing : Nat) :
    (items.modify place change).map some ++ List.replicate missing none =
      (items.map some ++ List.replicate missing none).modify place (Option.map change) := by
  refine List.ext_getElem? fun i => ?_
  simp only [List.getElem?_append, List.getElem?_modify, List.length_map, List.length_modify,
    List.getElem?_map, List.getElem?_replicate]
  by_cases within : i < items.length <;> by_cases here : place = i <;> simp [within, here]

/-- Changes before a conversion come to the same as changes after it. -/
theorem mapM_map_of_commutes {α β : Type} {convert : α → Option β} {before : α → α} {after : β → β}
    (commutes : ∀ item, convert (before item) = (convert item).map after) (items : List α) :
    (items.map before).mapM convert = (items.mapM convert).map (List.map after) := by
  induction items with
  | nil => rfl
  | cons item items ih =>
    rw [List.map_cons, List.mapM_cons, List.mapM_cons, commutes, ih]
    cases convert item <;> cases items.mapM convert <;> rfl

/-- Changing members by their names comes to the same before the names are read and after. -/
theorem text?_changeNamed (name : String) (change : Tree → Tree) (member : Literal × Tree) :
    (do
      return ((← Literal.text? (Json.changeNamed name change member).1),
        (Json.changeNamed name change member).2)) =
      Option.map (changeEntry name change) (do return ((← Literal.text? member.1), member.2)) := by
  cases named : Literal.text? member.1 with
  | none => simp [Json.changeNamed, named]
  | some text => by_cases here : text = name <;> simp [Json.changeNamed, changeEntry, named, here]

/-- What is read of a record of which one member is changed. -/
theorem membersOfTree?_changeMember {names : List String} {name : String} {place : Nat}
    (distinct : names.Nodup) (there : names[place]? = some name) (change : Tree → Tree)
    (tree : Tree) :
    membersOfTree? names (tree.changeMember name place change) =
      (membersOfTree? names tree).map fun written => written.modify place (Option.map change) := by
  cases tree with
  | scalar => rfl
  | array items =>
    simp only [Tree.changeMember, membersOfTree?, List.length_modify]
    split
    · rw [Option.map_some, map_some_modify_append]
    · rfl
  | object members =>
    simp only [Tree.changeMember, membersOfTree?]
    rw [mapM_map_of_commutes (text?_changeNamed name change), Option.bind_eq_bind,
      Option.bind_eq_bind, Option.bind_map, Option.map_bind]
    congr 1
    ext1 named
    -- the change concerns values only, so the same names are known, and as distinct as before
    have known : (named.map (changeEntry name change)).filter (names.contains ·.1) =
        (named.filter (names.contains ·.1)).map (changeEntry name change) := by
      simp only [List.filter_map, Function.comp_def, fst_changeEntry]
    simp only [Function.comp_apply, known, List.map_map, Function.comp_def, fst_changeEntry,
      map_lookup_changeEntry distinct there]
    split <;> rfl

/-! ### A program without loose entries -/

/-- A member is read as it is, if a change of what is written does not show. -/
theorem orDefault_map {α β : Type} {read : α → Option β} {default : β} {change : α → α}
    {written : Option α} {value : β} (accepted : orDefault read default written = some value)
    (same : ∀ part result, read part = some result → read (change part) = some result) :
    orDefault read default (written.map change) = some value := by
  cases written with
  | none => exact accepted
  | some part => exact same part value accepted

theorem ofTree?_tidyTarget {tree : Tree} {target : Target}
    (accepted : Target.ofTree? tree = some target) :
    Target.ofTree? (tidyTarget tree) = some target := by
  unfold Target.ofTree? at accepted ⊢
  rw [tidyTarget, membersOfTree?_changeMember (by decide) rfl]
  split at accepted
  · rename_i name isStage blocks broadcasts written
    rw [written]
    simp only [Option.bind_eq_bind, Option.bind_eq_some_iff] at accepted
    obtain ⟨nameRead, readName, stageRead, readStage, blocksRead, readBlocks, rest⟩ := accepted
    have tidied := orDefault_map readBlocks fun _ _ => blocksOfTree?_tidyBlocks
    simp only [Option.map_some, List.modify_succ_cons, List.modify_zero_cons, Option.bind_eq_bind,
      Option.bind_eq_some_iff]
    exact ⟨nameRead, readName, stageRead, readStage, blocksRead, tidied, rest⟩
  · cases accepted

theorem targetsOfTree?_tidyTargets {tree : Tree} {targets : List Target}
    (accepted : targetsOfTree? tree = some targets) :
    targetsOfTree? (tidyTargets tree) = some targets := by
  cases tree with
  | scalar | object => cases accepted
  | array items =>
    have each := mapM_eq_some_iff.mp accepted
    refine mapM_eq_some_iff.mpr (List.forall₂_map_left_iff.mpr ?_)
    exact each.imp fun _ _ => ofTree?_tidyTarget

/-- A program is read as it is without its loose entries. -/
theorem ofTree?_tidyProject {tree : Tree} {program : Program}
    (accepted : Program.ofTree? tree = some program) :
    Program.ofTree? (tidyProject tree) = some program := by
  unfold Program.ofTree? at accepted ⊢
  rw [tidyProject, membersOfTree?_changeMember (by decide) rfl]
  split at accepted
  · rename_i targets written
    rw [written]
    obtain ⟨read, readTargets, rfl⟩ := Option.map_eq_some_iff.mp accepted
    simp only [Option.map_some, List.modify_zero_cons]
    rw [orDefault_map readTargets fun _ _ => targetsOfTree?_tidyTargets, Option.map_some]
  · cases accepted

/-- Loose entries are dropped, and of the other ones all are read or none is.

Blocks that are read from a list of entries cannot be read exactly if the last value of one of the
ids is an object and no block. Otherwise they are what the objects among the last values are read
as, in the order of the ids. A text from which the loose entries are taken out gives the same
program, and so the same chart. -/
theorem drops_loose_entries :
    (∀ read : List (String × Value),
      (decodeBlocks? (OrderedMap.ofList read) = none ↔
        ∃ id value, lastValue? read id = some value ∧ isObject value ∧
          Block.ofValue? value = none) ∧
      ∀ blocks, decodeBlocks? (OrderedMap.ofList read) = some blocks →
        blocks.names =
          (read.map Prod.fst).eraseDups.filter (fun id => (lastValue? read id).any isObject) ∧
        ∀ id block, blocks.get? id = some block ↔
          ∃ value, lastValue? read id = some value ∧ isObject value ∧
            Block.ofValue? value = some block) ∧
    ∀ (bytes tidied : List UInt8) (program : Program), Program.ofBytes? bytes = some program →
      Tree.ofBytes? tidied = (Tree.ofBytes? bytes).map tidyProject →
        Program.ofBytes? tidied = some program ∧
        ∀ options, (Program.ofBytes? tidied).map (Chart.ofProgram · options) =
          some (Chart.ofProgram program options) := by
  refine ⟨fun read => ?_, fun bytes tidied program accepted tidies => ?_⟩
  · simp only [lastValue?, ← OrderedMap.get?_ofList, ← OrderedMap.names_ofList]
    exact ⟨decodeBlocks?_eq_none_iff, fun blocks decoded =>
      ⟨names_of_decodeBlocks? decoded, get?_of_decodeBlocks? decoded⟩⟩
  · obtain ⟨tree, parsed, taken⟩ := Option.bind_eq_some_iff.mp accepted
    have same : Program.ofBytes? tidied = some program := by
      rw [Program.ofBytes?, tidies, parsed]
      exact ofTree?_tidyProject taken
    exact ⟨same, fun options => by rw [same, Option.map_some]⟩

/-- A project of one target, among whose blocks the first is loose, the second is loose at first,
the third at last, and the fourth not. -/
def looseText : List UInt8 :=
  ("[[[\"Cat\",true,\x7b\"v\":[12],\"a\":[],\"b\":\x7b\x7d,\"a\":\x7b\x7d,\"b\":3," ++
    "\"c\":\x7b\x7d\x7d]]]").toUTF8.toList

/-- The project without its loose entries. -/
def tidyText : List UInt8 :=
  "[[[\"Cat\",true,\x7b\"a\":[],\"a\":\x7b\x7d,\"c\":\x7b\x7d\x7d]]]".toUTF8.toList

theorem ofBytes?_tidyText :
    Tree.ofBytes? tidyText = (Tree.ofBytes? looseText).map tidyProject := by
  with_unfolding_all rfl

/-- The entries that the project has among its blocks. -/
def looseEntries : List (String × Value) :=
  [("v", .array []), ("a", .array []), ("b", .object []), ("a", .object []), ("b", .null),
    ("c", .object [])]

/-- Entries of which one is an object and no block. -/
def brokenEntries : List (String × Value) :=
  [("a", .object []), ("a", .object [("opcode", .null)]), ("c", .object [])]

/-- Entries that are loose at last are dropped, and an object that is no block stops the reading. -/
theorem drops_loose_entries_looseText :
    (∃ blocks, decodeBlocks? (OrderedMap.ofList looseEntries) = some blocks ∧
      blocks.names = ["a", "c"]) ∧
    decodeBlocks? (OrderedMap.ofList brokenEntries) = none ∧
    ∃ program, Program.ofBytes? looseText = some program ∧
      program.targets.map (fun target => target.blocks.names) = [["a", "c"]] ∧
      Program.ofBytes? tidyText = some program := by
  obtain ⟨entries, texts⟩ := drops_loose_entries
  refine ⟨?_, ?_, ?_⟩
  · have read : (decodeBlocks? (OrderedMap.ofList looseEntries)).isSome := by decide +kernel
    obtain ⟨blocks, decoded⟩ := Option.isSome_iff_exists.mp read
    refine ⟨blocks, decoded, ?_⟩
    rw [((entries looseEntries).2 blocks decoded).1]
    decide +kernel
  · refine (entries brokenEntries).1.mpr ⟨"a", .object [("opcode", .null)], ?_, rfl, ?_⟩
    · rfl
    · rfl
  · have read : (Program.ofBytes? looseText).map (fun program =>
        program.targets.map fun target => target.blocks.names) = some [["a", "c"]] := by
      decide +kernel
    obtain ⟨program, accepted, named⟩ := Option.map_eq_some_iff.mp read
    exact ⟨program, accepted, named,
      (texts looseText tidyText program accepted ofBytes?_tidyText).1⟩

end Project

end ScriptChart
