import ScriptChart.Proofs.Chart.Lines

/-!
# What an id tells

A node of a chart is described by the name of its target, the number of its script when the target
has several, its block and its role. The id tells all of it: the target's part has a fixed length;
what follows either begins with the number of the script, which ends at an underscore, or with the
safe id of the block; and no suffix is long enough for the one to be taken for the other. So two
nodes have the same id only if they are described in the same way, as long as the digests of their
names and blocks do not collide.

## Main definitions

* `Description`, `Description.id`: what is told of a node, and its id.
* `NoCollision`: two texts are told apart by their safe ids.

## Main results

* `Description.eq_of_id_eq`, `Description.role_eq_of_id_eq`: an id tells the description, and the
  role in any case.
* `id_cases_of_mem_targetSection`: the ids in the section of a target.
* `naming_ofProgram`: the ids of charts are not ambiguous.
-/

namespace ScriptChart.Chart

open ScriptChart.Diagram ScriptChart.Digest ScriptChart.Flow ScriptChart.Phrase
open ScriptChart.Project

/-- Two texts do not have the same safe id, unless they are the same. -/
def NoCollision (text other : String) : Prop := safeId text = safeId other → text = other

instance (text other : String) : Decidable (NoCollision text other) :=
  inferInstanceAs (Decidable (safeId text = safeId other → text = other))

/-- What is told of a node: the name of its target, the number of its script when there are
several, and which node of the script it is. -/
@[ext]
structure Description where
  target : String
  script : Option Nat
  node : Node
deriving DecidableEq, Repr

namespace Description

/-- The number of a script with the underscore after it, nothing when there is no number. -/
def number : Option Nat → List Char
  | none => []
  | some index => (toString index).toList ++ ['_']

/-- What the ids of the nodes of a script begin with. -/
def stem (description : Description) : String :=
  match description.script with
  | none => targetId description.target
  | some index => targetId description.target ++ "_" ++ toString index

/-- The id of a node. -/
def id (description : Description) : String := nodeId description.stem description.node

/-- How a node is described in one of a number of scripts. -/
def ofScript (name : String) (scripts index : Nat) (node : Node) : Description :=
  ⟨name, if 1 < scripts then some index else none, node⟩

theorem id_ofScript (name : String) (scripts index : Nat) (node : Node) :
    (ofScript name scripts index node).id = nodeId (scriptStem name scripts index) node := by
  by_cases several : 1 < scripts
  · simp [ofScript, id, stem, scriptStem, several]
  · simp [ofScript, id, stem, scriptStem, several]

theorem toList_id (description : Description) :
    description.id.toList = (targetId description.target).toList ++
      '_' :: (number description.script ++ ((safeId description.node.owner).toList ++
        description.node.role.suffix.toList)) := by
  rw [id, toList_nodeId]
  unfold stem
  cases description.script <;> simp [number]

end Description

/-! ### Reading descriptions back -/

/-- What stands after the first underscore of a suffix is shorter than a safe id. -/
theorem suffix_cases (role : Role) :
    role.suffix.toList = [] ∨
      ∃ rest : List Char, role.suffix.toList = '_' :: rest ∧ rest.length < 32 := by
  cases role with
  | block => exact .inl rfl
  | again | conditionEnd | loopEnd | runaway | blockLeaf | conditionLeaf | loopLeaf =>
    exact .inr ⟨_, rfl, by decide⟩

/-- The safe id of a block is not taken for the number of a script. -/
theorem safeId_append_suffix_ne (owner other : String) (role role' : Role) (index : Nat) :
    (safeId owner).toList ++ role.suffix.toList ≠
      (toString index).toList ++ '_' :: ((safeId other).toList ++ role'.suffix.toList) := by
  intro same
  rcases suffix_cases role with none | ⟨rest, whole, short⟩
  · -- without a suffix there is no underscore
    have inside : '_' ∈ (safeId owner).toList ++ role.suffix.toList := by
      rw [same]
      exact List.mem_append_right _ List.mem_cons_self
    rw [none, List.append_nil] at inside
    exact underscore_not_mem_safeId owner inside
  · -- the first underscore is that of the suffix, and a safe id is too long for what follows
    rw [whole] at same
    obtain ⟨-, after⟩ := eq_of_append_cons_eq (underscore_not_mem_safeId owner)
      (underscore_not_mem_toString index) same
    have long := congrArg List.length after
    rw [List.length_append, length_toList_safeId] at long
    omega

/-- What follows the number of a script tells the number. -/
theorem number_cancel {script script' : Option Nat} {node node' : Node}
    (same : Description.number script ++ ((safeId node.owner).toList ++ node.role.suffix.toList) =
      Description.number script' ++
        ((safeId node'.owner).toList ++ node'.role.suffix.toList)) :
    script = script' := by
  cases script with
  | none =>
    cases script' with
    | none => rfl
    | some index =>
      simp only [Description.number, List.nil_append, List.append_assoc, List.singleton_append]
        at same
      exact absurd same (safeId_append_suffix_ne _ _ _ _ _)
  | some index =>
    cases script' with
    | none =>
      simp only [Description.number, List.nil_append, List.append_assoc, List.singleton_append]
        at same
      exact absurd same.symm (safeId_append_suffix_ne _ _ _ _ _)
    | some index' =>
      simp only [Description.number, List.append_assoc, List.singleton_append] at same
      obtain ⟨digits, -⟩ := eq_of_append_cons_eq (underscore_not_mem_toString index)
        (underscore_not_mem_toString index') same
      rw [Nat.repr_injective (String.toList_inj.mp digits)]

/-- The part of the target tells the safe id of its name. -/
theorem safeId_eq_of_append_eq {name name' : String} {rest rest' : List Char}
    (same : (targetId name).toList ++ rest = (targetId name').toList ++ rest') :
    safeId name = safeId name' ∧ rest = rest' := by
  have lengths : (targetId name).toList.length = (targetId name').toList.length := by
    rw [length_targetId, length_targetId]
  obtain ⟨names, rests⟩ := List.append_inj same lengths
  rw [toList_targetId, toList_targetId, List.cons.injEq] at names
  exact ⟨String.toList_inj.mp names.2, rests⟩

/-- An id tells the description, when neither the names nor the blocks collide. -/
theorem Description.eq_of_id_eq {description description' : Description}
    (names : NoCollision description.target description'.target)
    (owners : NoCollision description.node.owner description'.node.owner)
    (same : description.id = description'.id) : description = description' := by
  have letters := congrArg String.toList same
  rw [toList_id, toList_id] at letters
  obtain ⟨targets, rest⟩ := safeId_eq_of_append_eq letters
  have target := names targets
  have script := number_cancel (List.cons.inj rest).2
  -- now both ids have the same stem
  have stems : description.stem = description'.stem := by
    unfold stem
    rw [target, script]
  rw [id, id, stems] at same
  obtain ⟨digests, roles⟩ := eq_of_nodeId_eq same
  exact Description.ext target script (Node.ext (owners digests) roles)

/-- An id tells the role, whatever collides. -/
theorem Description.role_eq_of_id_eq {description description' : Description}
    (same : description.id = description'.id) :
    description.node.role = description'.node.role := by
  have letters := congrArg String.toList same
  rw [toList_id, toList_id] at letters
  obtain ⟨-, rest⟩ := safeId_eq_of_append_eq letters
  have rest := (List.cons.inj rest).2
  rw [number_cancel rest, List.append_cancel_left_eq] at rest
  have lengths : (safeId description.node.owner).toList.length =
      (safeId description'.node.owner).toList.length := by
    rw [length_toList_safeId, length_toList_safeId]
  exact suffix_injective (String.toList_inj.mp (List.append_inj rest lengths).2)

theorem Description.id_ne_targetId (description : Description) (name : String) :
    description.id ≠ targetId name := by
  intro same
  have long := congrArg (fun id => id.toList.length) same
  simp only [toList_id, List.length_append, List.length_cons, length_targetId] at long
  omega

theorem Description.id_ne_rootId (description : Description) : description.id ≠ rootId := by
  intro same
  have long := congrArg (fun id => id.toList.length) same
  simp only [toList_id, List.length_append, List.length_cons, length_targetId] at long
  have short : rootId.toList.length = 5 := by decide
  omega

/-! ### The ids of charts -/

/-- The ids in the section of a target are those of the root, of the target, and of nodes of its
scripts. -/
theorem id_cases_of_mem_targetSection {target : Target} {dictionary : Dictionary}
    {line : Statement} (inside : line ∈ (targetSection dictionary target).value) {id : String}
    (used : id ∈ line.ids) :
    id = rootId ∨ id = targetId target.name ∨
      ∃ script ∈ target.entryPoints.zipIdx, ∃ node,
        id = (Description.ofScript target.name target.entryPoints.length script.2 node).id := by
  rw [mem_targetSection_iff] at inside
  obtain ⟨-, rfl | ⟨script, chosen, rfl | ⟨step, walked, drawn⟩⟩⟩ := inside
  · rcases List.mem_cons.mp used with root | used
    · exact .inl root
    · exact .inr (.inl (List.mem_singleton.mp used))
  · rcases List.mem_cons.mp used with target | used
    · exact .inr (.inl target)
    · refine .inr (.inr ⟨script, chosen, .ofBlock script.1, ?_⟩)
      rw [Description.id_ofScript]
      exact List.mem_singleton.mp used
  · obtain ⟨node, same⟩ := Pen.exists_node_of_mem_draw _ drawn used
    refine .inr (.inr ⟨script, chosen, node, ?_⟩)
    rw [Description.id_ofScript]
    exact same

/-- The ids of charts are not ambiguous. Descriptions whose names and blocks do not collide have the
same id only if they are the same, none of their ids is that of the root or of a target, and every
other id in a chart is that of a node of a script, described by the name of the target and by the
number of the script when there are several. -/
theorem naming_ofProgram :
    (∀ description description' : Description,
      NoCollision description.target description'.target →
        NoCollision description.node.owner description'.node.owner →
          description.id = description'.id → description = description') ∧
    (∀ description : Description,
      description.id ≠ rootId ∧ ∀ name, description.id ≠ targetId name) ∧
    ∀ (program : Program) (options : Options),
      ∀ line ∈ (ofProgram program options).statements, ∀ id ∈ line.ids,
        id = rootId ∨ ∃ target ∈ program.targets, id = targetId target.name ∨
          ∃ script ∈ target.entryPoints.zipIdx, ∃ node,
            id = (Description.ofScript target.name target.entryPoints.length script.2 node).id := by
  refine ⟨?_, ?_, ?_⟩
  · intro description description' names owners same
    exact Description.eq_of_id_eq names owners same
  · intro description
    exact ⟨description.id_ne_rootId, description.id_ne_targetId⟩
  · intro program options line inside id used
    rw [mem_statements_iff] at inside
    obtain rfl | ⟨target, chosen, inside⟩ := inside
    · exact .inl (List.mem_singleton.mp used)
    · exact (id_cases_of_mem_targetSection inside used).imp_right fun way => ⟨target, chosen, way⟩

/-- In one script of several, the sentinel of a block is not the end of a loop in the only script of
a target with the same name. -/
theorem naming_runaway_ne_loopEnd :
    NoCollision "Cat" "Cat" ∧ NoCollision "flag" "loop" ∧
      (Description.mk "Cat" (some 0) ⟨"flag", .runaway⟩).id ≠
        (Description.mk "Cat" none ⟨"loop", .loopEnd⟩).id := by
  have names : NoCollision "Cat" "Cat" := fun _ => rfl
  have owners : NoCollision "flag" "loop" := by decide +kernel
  refine ⟨names, owners, fun same => ?_⟩
  have told := naming_ofProgram.1 ⟨"Cat", some 0, ⟨"flag", .runaway⟩⟩
    ⟨"Cat", none, ⟨"loop", .loopEnd⟩⟩ names owners same
  exact absurd told (by decide)

end ScriptChart.Chart
