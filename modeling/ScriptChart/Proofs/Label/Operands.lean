import ScriptChart.Proofs.Label.Depth

/-!
# Operands and their places

The phrase of an operator names its operands by their places. The operands are rendered one after
the other in the order in which they are shown, but those without a text are left out before the
phrase is filled, so the ones behind them move up. When all of them have a text, each is shown in
its place.

## Main definitions

* `Resolver.operandTexts`: the texts of the operands, in the order in which they are shown.
* `equalsBlock`, `equalsResolver`: a comparison of two texts.

## Main results

* `operatorKeys_perm`: every input of an operator is an operand.
* `fill_placeholder`: a placeholder shows the parameter in its place.
* `Resolver.shown_operator`: how an operator is shown.
* `shown_equals_blank`: an operand that takes the place of one without a text.
-/

namespace ScriptChart.Label

open ScriptChart.Phrase ScriptChart.Project

/-! ### The order of operands -/

theorem insertSorted_perm (name : String) (names : List String) :
    (insertSorted name names).Perm (name :: names) := by
  induction names with
  | nil => exact .refl _
  | cons other rest ih =>
    unfold insertSorted
    split
    · exact .refl _
    · exact (ih.cons other).trans (.swap name other rest)

theorem sorted_perm (names : List String) : (sorted names).Perm names := by
  induction names with
  | nil => exact .refl _
  | cons name rest ih => exact (insertSorted_perm name _).trans (ih.cons name)

/-- Preferring some names loses none and adds none. -/
theorem preferring_perm {front present : List String} (nodup : front.Nodup)
    (nodup' : present.Nodup) {arrange : List String → List String}
    (arranges : ∀ names, (arrange names).Perm names) :
    (preferring front present arrange).Perm present := by
  have first : (front.filter (present.contains ·)).Perm (present.filter (front.contains ·)) := by
    apply (List.perm_ext_iff_of_nodup (nodup.filter _) (nodup'.filter _)).mpr
    intro name
    simp [List.mem_filter, and_comm]
  exact (first.append (arranges _)).trans (List.filter_append_perm (front.contains ·) present)

/-- Every input of an operator is an operand. -/
theorem operatorKeys_perm (block : Block) : (operatorKeys block).Perm block.inputs.names :=
  preferring_perm (by decide) block.inputs.nodup_names sorted_perm

/-! ### Filling a phrase -/

/-- A placeholder shows the parameter in its place. -/
theorem fill_placeholder {params : List String} {digits : List Char} {index : Nat}
    (names : Text.natOfAscii? digits = some (index + 1)) (within : index < params.length) :
    Segment.fill params (.placeholder digits) = params[index].toList := by
  simp [Segment.fill, parameterAt?, names, within]

/-! ### Operators -/

/-- There is one text for each item. -/
theorem length_mapM {α β : Type} (text : α → Rendering β) (items : List α) (trail : Trail) :
    ((items.mapM text).run trail).value.1.length = items.length := by
  induction items generalizing trail with
  | nil => rfl
  | cons item rest ih =>
    rw [List.mapM_cons]
    simp [ih]

namespace Resolver

variable (r : Resolver)

/-- The texts of the operands of a block, rendered one after the other within its expansion. -/
def operandTexts (id : String) (block : Block) : List String :=
  ((((operatorKeys block).filterMap block.inputs.get?).mapM r.input).run
    (Trail.start.enter id)).value.1

/-- There is one text for each input. -/
theorem length_operandTexts (id : String) (block : Block) :
    (r.operandTexts id block).length = block.inputs.size := by
  have present : ∀ key ∈ operatorKeys block, (block.inputs.get? key).isSome = true := by
    intro key inside
    exact (block.inputs.contains_iff_mem_names key).mpr ((operatorKeys_perm block).subset inside)
  have all : ((operatorKeys block).filterMap block.inputs.get?).length =
      (operatorKeys block).length :=
    List.filterMap_length_eq_length.mpr present
  rw [operandTexts, length_mapM, all, (operatorKeys_perm block).length_eq, OrderedMap.names,
    List.length_map, OrderedMap.size]

variable {r} {id : String} {block : Block} {template : String}
  (operator : Text.beginsWith "operator" block.opcode = true)
  (phrased : r.dictionary.phrase? block.opcode = some template)
  (fieldless : block.fields.isEmpty = true) (plain : block.mutation = none)
include operator phrased fieldless plain

/-- Within its expansion an operator has nothing to show but its operands. -/
theorem expandVia_operator (reference : ReferenceText) :
    r.expandVia reference block = (do
      let texts ← ((operatorKeys block).filterMap block.inputs.get?).mapM (r.inputVia reference)
      return substitute template (texts.filter fun text => !text.isEmpty)) := by
  have nothing : r.fields block = pure [] := by
    simp [fields, List.isEmpty_iff.mp fieldless]
  have single : (block.fields.size == 1) = false := by
    rw [OrderedMap.size, List.isEmpty_iff.mp fieldless]
    rfl
  have wordless : r.procedureVia reference block = pure none := by
    simp [procedureVia, plain]
  have keys : valueKeys block = operatorKeys block := by
    rw [valueKeys, operator, if_pos rfl]
  simp [expandVia, nothing, single, wordless, keys, operandsVia, Dictionary.render?, phrased]

/-- An operator is shown by its phrase, filled with those of its operands that have a text. -/
theorem value_freshly_reference (id : String) :
    (r.reference id block).freshly.value =
      substitute template ((r.operandTexts id block).filter fun text => !text.isEmpty) := by
  have depth : 127 + (Trail.start.enter id).depth = expansionLimit := rfl
  have entered : (r.reference id block).run .start =
      (r.referenceWithin (127 + 1) id block).run .start := rfl
  rw [Rendering.freshly, Report.value_map, entered, r.run_referenceWithin_succ List.not_mem_nil,
    Report.value_map, operandTexts, r.run_mapM_input depth,
    expandVia_operator operator phrased fieldless plain]
  simp

/-- How an operator is shown, which has a phrase, no field and no custom procedure. Operands without
a text are left out, and the phrase is filled with the others. So when all operands have a text, the
phrase is filled with all of them, of which there is one for each input, and every placeholder shows
the operand in its place. -/
theorem shown_operator (id : String) :
    (r.reference id block).freshly.value =
        substitute template ((r.operandTexts id block).filter fun text => !text.isEmpty) ∧
      ((∀ text ∈ r.operandTexts id block, text ≠ "") →
        (r.reference id block).freshly.value = substitute template (r.operandTexts id block) ∧
          (r.operandTexts id block).length = block.inputs.size ∧
            ∀ index, ∀ within : index < (r.operandTexts id block).length, ∀ digits,
              Text.natOfAscii? digits = some (index + 1) →
                Segment.fill (r.operandTexts id block) (.placeholder digits) =
                  ((r.operandTexts id block)[index]).toList) := by
  have shown := value_freshly_reference operator phrased fieldless plain id
  refine ⟨shown, fun worded => ?_⟩
  have all : (r.operandTexts id block).filter (fun text => !text.isEmpty) =
      r.operandTexts id block := by
    apply List.filter_eq_self.mpr
    intro text inside
    simpa using worded text inside
  rw [all] at shown
  exact ⟨shown, r.length_operandTexts id block, fun index within digits names =>
    fill_placeholder names within⟩

end Resolver

/-- A comparison of two texts. -/
def equalsBlock (first second : String) : Block :=
  { opcode := "operator_equals"
    inputs := .ofList
      [("OPERAND1", .nested (.literal first)), ("OPERAND2", .nested (.literal second))] }

/-- A target that holds a comparison of two texts, and a dictionary with its phrase. -/
def equalsResolver (first second : String) : Resolver where
  target := { name := "Cat", blocks := .ofList [("equals", equalsBlock first second)] }
  dictionary := .ofList [("OPERATOR_EQUALS", "%1 = %2")]

/-- Two operands with a text are shown in their places. -/
theorem shown_equals_words :
    ((equalsResolver "a" "b").reference "equals" (equalsBlock "a" "b")).freshly.value =
      "a = b" := by
  have texts : (equalsResolver "a" "b").operandTexts "equals" (equalsBlock "a" "b") =
    ["a", "b"] := by decide +kernel
  have phrased : (equalsResolver "a" "b").dictionary.phrase? (equalsBlock "a" "b").opcode =
    some "%1 = %2" := by decide +kernel
  have shown := (Resolver.shown_operator (by decide +kernel) phrased rfl rfl "equals").2
    (by rw [texts]; decide)
  rw [shown.1, texts]
  decide +kernel

/-- When the first operand has no text, the second one is shown in its place, and not where the
phrase has it. -/
theorem shown_equals_blank :
    Text.beginsWith "operator" (equalsBlock "" "b").opcode = true ∧
      (equalsResolver "" "b").dictionary.phrase? (equalsBlock "" "b").opcode = some "%1 = %2" ∧
      (equalsBlock "" "b").fields.isEmpty = true ∧ (equalsBlock "" "b").mutation = none ∧
      (equalsResolver "" "b").operandTexts "equals" (equalsBlock "" "b") = ["", "b"] ∧
      ((equalsResolver "" "b").reference "equals" (equalsBlock "" "b")).freshly.value = "b = %2" ∧
      substitute "%1 = %2" ["", "b"] = " = b" := by
  decide +kernel

end ScriptChart.Label
