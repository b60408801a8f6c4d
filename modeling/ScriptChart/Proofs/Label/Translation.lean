import ScriptChart.Label.Statement
import ScriptChart.Proofs.Label.Report

/-!
# Labels in two languages

A label is put together with one dictionary or with another one. The texts differ, and a text that
is empty in one language is left out there; but the same references are expanded in the same order
and the same faults are reported. Where a text decides what is done next, both ways have the same
effects: a menu without a text is shown by its phrase, and it has nothing else to show.

Only for a loop that waits for its condition does it matter whether a dictionary has its phrase,
since the loop shows only its condition with it, and all of its inputs without it.

## Main definitions

* `Alike`, `SameEffects`: two renderings have related texts, or any texts, and the same effects.
* `Silent`: a rendering has no effects.

## Main results

* `sameEffects_reference`, `sameEffects_input`: values have the same effects in two languages.
* `diagnostics_nodeLabel`: labels report the same faults in two languages.
-/

namespace ScriptChart.Label

open ScriptChart.Phrase ScriptChart.Project

/-- Two renderings have related texts and the same effects: from every trail they come to the same
trail and report the same faults. -/
def Alike {α β : Type} (related : α → β → Prop) (first : Rendering α) (second : Rendering β) :
    Prop :=
  ∀ trail, related (first.run trail).value.1 (second.run trail).value.1 ∧
    (first.run trail).value.2 = (second.run trail).value.2 ∧
      (first.run trail).diagnostics = (second.run trail).diagnostics

/-- Two renderings have the same effects, whatever their texts are. -/
abbrev SameEffects {α β : Type} (first : Rendering α) (second : Rendering β) : Prop :=
  Alike (fun _ _ => True) first second

/-- A rendering has no effects. -/
abbrev Silent {α : Type} (rendering : Rendering α) : Prop :=
  SameEffects rendering (pure () : Rendering Unit)

section

variable {α β γ δ : Type} {related : α → β → Prop} {related' : γ → δ → Prop}

theorem Alike.pure {value : α} {value' : β} (same : related value value') :
    Alike related (Pure.pure value) (Pure.pure value') :=
  fun _ => ⟨same, rfl, rfl⟩

theorem Alike.bind {first : Rendering α} {second : Rendering β} {next : α → Rendering γ}
    {next' : β → Rendering δ} (same : Alike related first second)
    (later : ∀ value value', related value value' → Alike related' (next value) (next' value')) :
    Alike related' (first >>= next) (second >>= next') := by
  intro trail
  obtain ⟨values, trails, faults⟩ := same trail
  obtain ⟨values', trails', faults'⟩ := later _ _ values (first.run trail).value.2
  rw [trails] at values' trails' faults'
  simp only [StateT.run_bind, Report.value_bind, Report.diagnostics_bind, faults, trails]
  exact ⟨values', trails', congrArg _ faults'⟩

theorem Alike.liftM {report : Report α} {report' : Report β}
    (values : related report.value report'.value)
    (faults : report.diagnostics = report'.diagnostics) :
    Alike related (MonadLiftT.monadLift report : Rendering α)
      (MonadLiftT.monadLift report' : Rendering β) :=
  fun _ => ⟨values, rfl, congrArg (· ++ []) faults⟩

theorem Alike.same (report : Report α) :
    Alike Eq (MonadLiftT.monadLift report : Rendering α) (MonadLiftT.monadLift report) :=
  .liftM rfl rfl

theorem Alike.get : Alike Eq (MonadState.get : Rendering Trail) MonadState.get :=
  fun _ => ⟨rfl, rfl, rfl⟩

theorem Alike.modify (change : Trail → Trail) :
    SameEffects (modify change : Rendering Unit) (modify change : Rendering Unit) :=
  fun _ => ⟨trivial, rfl, rfl⟩

theorem SameEffects.mapM {items : List γ} {text : γ → Rendering α} {text' : γ → Rendering β}
    (each : ∀ item ∈ items, SameEffects (text item) (text' item)) :
    SameEffects (items.mapM text) (items.mapM text') := by
  induction items with
  | nil => exact .pure trivial
  | cons item rest ih =>
    rw [List.mapM_cons, List.mapM_cons]
    refine Alike.bind (each item List.mem_cons_self) fun _ _ _ => ?_
    refine Alike.bind (ih fun other inside => each other (List.mem_cons_of_mem item inside))
      fun _ _ _ => ?_
    exact .pure trivial

theorem Silent.bind {first : Rendering α} {next : α → Rendering β} (silent : Silent first)
    (later : ∀ value, Silent (next value)) : Silent (first >>= next) := by
  have units : SameEffects (first >>= next)
      ((Pure.pure () : Rendering Unit) >>= fun _ => Pure.pure ()) :=
    Alike.bind silent fun value _ _ => later value
  exact units

theorem Silent.sameEffects {first : Rendering α} {second : Rendering β} (silent : Silent first)
    (silent' : Silent second) : SameEffects first second :=
  fun trail => ⟨trivial, (silent trail).2.1.trans (silent' trail).2.1.symm,
    (silent trail).2.2.trans (silent' trail).2.2.symm⟩

/-- Two values of which both are there or neither is. -/
theorem both_or_neither {value : Option α} {value' : Option β}
    (same : value.isSome = value'.isSome) :
    (∃ text text', value = some text ∧ value' = some text') ∨ value = none ∧ value' = none := by
  cases value <;> cases value' <;> simp at same ⊢

/-- Renderings with a trail of their own report the same faults. -/
theorem Alike.freshly {first : Rendering α} {second : Rendering β}
    (same : Alike related first second) :
    related first.freshly.value second.freshly.value ∧
      first.freshly.diagnostics = second.freshly.diagnostics := by
  obtain ⟨values, -, faults⟩ := same .start
  simp only [Rendering.freshly, Report.value_map, Report.diagnostics_map]
  exact ⟨values, faults⟩

end

/-- Filling slots has the effects of its arguments. -/
theorem sameEffects_fillSlots {argument argument' : String → Rendering String}
    (each : ∀ id, SameEffects (argument id) (argument' id)) (parts : List Part)
    (ids : List String) :
    SameEffects (fillSlots argument parts ids) (fillSlots argument' parts ids) := by
  induction parts generalizing ids with
  | nil => exact .pure trivial
  | cons part parts ih =>
    cases part with
    | plain c => exact Alike.bind (ih ids) fun _ _ _ => .pure trivial
    | slot kind =>
      cases ids with
      | nil => exact Alike.bind (ih []) fun _ _ _ => .pure trivial
      | cons id ids =>
        exact Alike.bind (each id) fun _ _ _ => Alike.bind (ih ids) fun _ _ _ => .pure trivial

/-- Filling slots with nothing has no effects. -/
theorem silent_fillSlots (parts : List Part) (ids : List String) :
    Silent (fillSlots (fun _ => pure "") parts ids) := by
  induction parts generalizing ids with
  | nil => exact .pure trivial
  | cons part parts ih =>
    cases part with
    | plain c => exact Silent.bind (ih ids) fun _ => .pure trivial
    | slot kind =>
      cases ids with
      | nil => exact Silent.bind (ih []) fun _ => .pure trivial
      | cons id ids =>
        exact Silent.bind (.pure trivial) fun _ => Silent.bind (ih ids) fun _ => .pure trivial

namespace Resolver

variable (target : Target) (dictionary dictionary' : Dictionary)

/-! ### Fields -/

theorem broadcast_eq (given : String) (id : Option String) :
    (Resolver.mk target dictionary).broadcast given id =
      (Resolver.mk target dictionary').broadcast given id := by
  cases id <;> rfl

theorem diagnostics_field (opcode name : String) (value : FieldValue) :
    ((Resolver.mk target dictionary).field opcode name value).diagnostics =
      ((Resolver.mk target dictionary').field opcode name value).diagnostics := by
  unfold field
  split
  · rw [broadcast_eq target dictionary dictionary']
  · rfl

theorem diagnostics_fields (block : Block) :
    ((Resolver.mk target dictionary).fields block).diagnostics =
      ((Resolver.mk target dictionary').fields block).diagnostics := by
  simp only [fields, Report.diagnostics_bind, Report.diagnostics_mapM,
    diagnostics_field target dictionary dictionary', Report.diagnostics_pure]

/-! ### Inputs and references -/

variable {reference reference' : ReferenceText}
  (each : ∀ id block, SameEffects (reference id block) (reference' id block))
include each

theorem sameEffects_inputVia (value : InputValue) :
    SameEffects ((Resolver.mk target dictionary).inputVia reference value)
      ((Resolver.mk target dictionary').inputVia reference' value) := by
  induction value with
  | literal text => exact .pure trivial
  | nested inner ih => exact ih
  | broadcast name id =>
    unfold inputVia
    rw [broadcast_eq target dictionary dictionary']
    exact .liftM trivial rfl
  | block id =>
    unfold inputVia
    cases target.block? id with
    | some block => exact each id block
    | none => exact Alike.bind (.same _) fun _ _ _ => .pure trivial

/-- Both languages have the wording of a procedure or neither has. -/
theorem alike_procedureVia (block : Block) :
    Alike (fun label label' => label.isSome = label'.isSome)
      ((Resolver.mk target dictionary).procedureVia reference block)
      ((Resolver.mk target dictionary').procedureVia reference' block) := by
  unfold procedureVia
  split
  · next wording argumentids _ =>
    refine Alike.bind (sameEffects_fillSlots (fun id => ?_) _ _) fun _ _ _ => .pure rfl
    cases block.inputs.get? id with
    | some value => exact sameEffects_inputVia target dictionary dictionary' each value
    | none => exact .pure trivial
  · exact .pure rfl

theorem sameEffects_operandsVia (block : Block) (keys : List String) :
    SameEffects ((Resolver.mk target dictionary).operandsVia reference block keys)
      ((Resolver.mk target dictionary').operandsVia reference' block keys) :=
  Alike.bind (SameEffects.mapM fun value _ =>
    sameEffects_inputVia target dictionary dictionary' each value) fun _ _ _ => .pure trivial

omit each

/-- The text of a block in an input slot that is not shown as its only field. -/
def phraseVia (r : Resolver) (reference : ReferenceText) (block : Block) (fields : List String) :
    Rendering String := do
  match ← r.procedureVia reference block with
  | some label => return label
  | none =>
    let operands ← r.operandsVia reference block (valueKeys block)
    let params := fields ++ operands
    return (r.dictionary.render? block.opcode params).getD (bareValue block.opcode params)

theorem expandVia_eq (r : Resolver) (reference : ReferenceText) (block : Block) :
    r.expandVia reference block = (do
      let fields ← liftM (r.fields block)
      match block.inputs.isEmpty && block.fields.size == 1, fields with
      | true, [value] => return value
      | _, _ => r.phraseVia reference block fields) := rfl

/-- A block without inputs is shown without effects. -/
theorem silent_phraseVia (r : Resolver) (reference : ReferenceText) {block : Block}
    (empty : block.inputs.isEmpty = true) (fields : List String) :
    Silent (r.phraseVia reference block fields) := by
  have nothing : block.inputs.get? = fun _ => none := by
    funext name
    simp [OrderedMap.get?, List.isEmpty_iff.mp empty]
  have procedure : Silent (r.procedureVia reference block) := by
    unfold procedureVia
    rw [nothing]
    split
    · exact Silent.bind (silent_fillSlots _ _) fun _ => .pure trivial
    · exact .pure trivial
  have operands : r.operandsVia reference block (valueKeys block) = pure [] := by
    have absent : (valueKeys block).filterMap (fun _ => (none : Option InputValue)) = [] :=
      List.filterMap_eq_nil_iff.mpr fun _ _ => rfl
    rw [operandsVia, nothing, absent]
    rfl
  refine Silent.bind procedure fun label => ?_
  cases label with
  | some label => exact .pure trivial
  | none =>
    rw [operands]
    exact .pure trivial

section

include each

theorem sameEffects_phraseVia (block : Block) (fields fields' : List String) :
    SameEffects ((Resolver.mk target dictionary).phraseVia reference block fields)
      ((Resolver.mk target dictionary').phraseVia reference' block fields') := by
  refine Alike.bind (alike_procedureVia target dictionary dictionary' each block)
    fun label label' same => ?_
  obtain ⟨text, text', rfl, rfl⟩ | ⟨rfl, rfl⟩ := both_or_neither same
  · exact .pure trivial
  · exact Alike.bind (sameEffects_operandsVia target dictionary dictionary' each block _)
      fun _ _ _ => .pure trivial

/-- A block in an input slot has the same effects in two languages, even when it is shown as its
only field in one of them and not in the other one. -/
theorem sameEffects_expandVia (block : Block) :
    SameEffects ((Resolver.mk target dictionary).expandVia reference block)
      ((Resolver.mk target dictionary').expandVia reference' block) := by
  rw [expandVia_eq, expandVia_eq]
  have faults : SameEffects (liftM ((Resolver.mk target dictionary).fields block))
      (liftM ((Resolver.mk target dictionary').fields block)) :=
    .liftM trivial (diagnostics_fields target dictionary dictionary' block)
  refine Alike.bind faults fun fields fields' _ => ?_
  have phrases := sameEffects_phraseVia target dictionary dictionary' each block fields fields'
  cases lone : block.inputs.isEmpty && block.fields.size == 1 with
  | false => exact phrases
  | true =>
    -- without inputs there are no effects, whichever way the block is shown
    have empty : block.inputs.isEmpty = true := (Bool.and_eq_true_iff.mp lone).1
    have silent : ∀ (r : Resolver) (reference : ReferenceText) (fields : List String),
        Silent (match true, fields with
          | true, [value] => pure value
          | _, _ => r.phraseVia reference block fields) := by
      intro r reference fields
      split
      · exact .pure trivial
      · exact silent_phraseVia r reference empty _
    exact (silent _ _ _).sameEffects (silent _ _ _)

end

theorem sameEffects_referenceWithin (levels : Nat) (id : String) (block : Block) :
    SameEffects ((Resolver.mk target dictionary).referenceWithin levels id block)
      ((Resolver.mk target dictionary').referenceWithin levels id block) := by
  -- induction on the levels, which bound the references within a reference
  induction levels generalizing id block with
  | zero => exact Alike.bind (.same _) fun _ _ _ => .pure trivial
  | succ levels ih =>
    unfold referenceWithin
    refine Alike.bind Alike.get fun trail _ same => ?_
    subst same
    split
    · exact Alike.bind (.same _) fun _ _ _ => .pure trivial
    · refine Alike.bind (.modify _) fun _ _ _ => ?_
      refine Alike.bind (sameEffects_expandVia target dictionary dictionary' ih block)
        fun _ _ _ => ?_
      exact Alike.bind (.modify _) fun _ _ _ => .pure trivial

/-- A block in an input slot has the same effects in two languages. -/
theorem sameEffects_reference (id : String) (block : Block) :
    SameEffects ((Resolver.mk target dictionary).reference id block)
      ((Resolver.mk target dictionary').reference id block) := by
  refine Alike.bind Alike.get fun trail _ same => ?_
  subst same
  exact sameEffects_referenceWithin target dictionary dictionary' _ id block

/-- An input has the same effects in two languages. -/
theorem sameEffects_input (value : InputValue) :
    SameEffects ((Resolver.mk target dictionary).input value)
      ((Resolver.mk target dictionary').input value) :=
  sameEffects_inputVia target dictionary dictionary'
    (sameEffects_reference target dictionary dictionary') value

/-! ### Labels -/

theorem diagnostics_freshly_input (value : InputValue) :
    ((Resolver.mk target dictionary).input value).freshly.diagnostics =
      ((Resolver.mk target dictionary').input value).freshly.diagnostics :=
  (sameEffects_input target dictionary dictionary' value).freshly.2

theorem diagnostics_parameters (block : Block) :
    ((Resolver.mk target dictionary).parameters block).diagnostics =
      ((Resolver.mk target dictionary').parameters block).diagnostics := by
  simp only [parameters, Report.diagnostics_bind, Report.diagnostics_mapM, Report.diagnostics_pure,
    diagnostics_fields target dictionary dictionary' block,
    diagnostics_freshly_input target dictionary dictionary']

/-- A statement reports the same faults in two languages. -/
theorem diagnostics_statement (block : Block) :
    ((Resolver.mk target dictionary).statement block).diagnostics =
      ((Resolver.mk target dictionary').statement block).diagnostics := by
  obtain ⟨somes, faults⟩ := (alike_procedureVia target dictionary dictionary'
    (sameEffects_reference target dictionary dictionary') block).freshly
  simp only [statement, procedure?, Report.diagnostics_bind, faults]
  refine congrArg (_ ++ ·) ?_
  generalize (procedureVia ⟨target, dictionary⟩ _ block).freshly.value = label at somes ⊢
  generalize (procedureVia ⟨target, dictionary'⟩ _ block).freshly.value = label' at somes ⊢
  obtain ⟨text, text', rfl, rfl⟩ | ⟨rfl, rfl⟩ := both_or_neither somes
  · rfl
  · simp only [Report.diagnostics_bind, Report.diagnostics_pure,
      diagnostics_parameters target dictionary dictionary' block]

theorem diagnostics_condition (block : Block) :
    ((Resolver.mk target dictionary).condition block).diagnostics =
      ((Resolver.mk target dictionary').condition block).diagnostics := by
  unfold condition
  cases block.inputs.get? "CONDITION" with
  | none => rfl
  | some value => exact diagnostics_freshly_input target dictionary dictionary' value

theorem opcode_of_repeatUntil {block : Block} (kind : block.control? = some .repeatUntil) :
    block.opcode = "control_repeat_until" := by
  unfold Block.control? ControlKind.ofOpcode? at kind
  grind

/-- Both languages show a block by its condition or neither does, when both dictionaries have the
phrase of a loop that waits for its condition or neither has. -/
theorem isSome_conditionPhrase?
    (both : (dictionary.get? "CONTROL_REPEAT_UNTIL").isSome =
      (dictionary'.get? "CONTROL_REPEAT_UNTIL").isSome) (block : Block) :
    ((Resolver.mk target dictionary).conditionPhrase? block).isSome =
      ((Resolver.mk target dictionary').conditionPhrase? block).isSome := by
  unfold conditionPhrase?
  cases kind : block.control? with
  | none => rfl
  | some control =>
    cases control with
    | repeatUntil =>
      have stored : Phrase.key block.opcode = "CONTROL_REPEAT_UNTIL" := by
        rw [opcode_of_repeatUntil kind]
        decide
      simp only [Dictionary.phrase?, stored]
      exact both
    | forever | ifThen | ifElse | repeatTimes => rfl

/-- A label reports the same faults in two languages, when both dictionaries have the phrase of a
loop that waits for its condition or neither has. -/
theorem diagnostics_nodeLabel
    (both : (dictionary.get? "CONTROL_REPEAT_UNTIL").isSome =
      (dictionary'.get? "CONTROL_REPEAT_UNTIL").isSome) (block : Block) :
    ((Resolver.mk target dictionary).nodeLabel block).diagnostics =
      ((Resolver.mk target dictionary').nodeLabel block).diagnostics := by
  have phrases := isSome_conditionPhrase? target dictionary dictionary' both block
  unfold nodeLabel
  generalize (Resolver.mk target dictionary).conditionPhrase? block = phrase at phrases ⊢
  generalize (Resolver.mk target dictionary').conditionPhrase? block = phrase' at phrases ⊢
  obtain ⟨text, text', rfl, rfl⟩ | ⟨rfl, rfl⟩ := both_or_neither phrases
  · simp only [Report.diagnostics_map, diagnostics_condition target dictionary dictionary' block]
  · exact diagnostics_statement target dictionary dictionary' block

end Resolver

end ScriptChart.Label
