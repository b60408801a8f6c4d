import ScriptChart.Proofs.Label.Operands
import ScriptChart.Proofs.Label.Translation
import ScriptChart.Proofs.Project.Mention

/-!
# What is shown of a block's inputs

The expansion of a block in an input slot has three parts: the texts of the fields, the texts of
some of the inputs, rendered one after the other, and a wording that is made of these texts and of
nothing else. For a procedure call the inputs are the arguments that have a slot in the wording, as
often as they are listed; for any other block they are all inputs, each of them once. So what an
expansion does beside wording its texts is told by a list of inputs.

## Main definitions

* `fillTexts`: a wording with texts in its slots.
* `shownKeys`, `shownValues`: the inputs that are shown, in order.
* `Resolver.worded`: what an expansion makes of its texts.

## Main results

* `fillSlots_eq`: filling slots renders as many arguments as there are slots, in order.
* `nodup_shownKeys`: no input is shown twice unless it is listed twice as an argument.
* `Resolver.expandVia_eq_worded`: an expansion renders the inputs that are shown, and words them.
-/

namespace ScriptChart.Label

open ScriptChart.Phrase ScriptChart.Project

/-! ### Slots of a wording -/

/-- How many slots a wording has. -/
def slotCount : List Part → Nat
  | [] => 0
  | .plain _ :: parts => slotCount parts
  | .slot _ :: parts => slotCount parts + 1

/-- A wording with one text after the other in its slots. Slots beyond the last text stay as
written. -/
def fillTexts : List Part → List String → List Char
  | [], _ => []
  | .plain c :: parts, texts => c :: fillTexts parts texts
  | .slot kind :: parts, [] => '%' :: kind :: fillTexts parts []
  | .slot _ :: parts, text :: texts => text.toList ++ fillTexts parts texts

/-- Filling slots renders as many arguments as there are slots, in order, before anything is
worded. -/
theorem fillSlots_eq (argument : String → Rendering String) (parts : List Part)
    (ids : List String) :
    fillSlots argument parts ids = (do
      let texts ← (ids.take (slotCount parts)).mapM argument
      return fillTexts parts texts) := by
  induction parts generalizing ids with
  | nil => simp [fillSlots, slotCount, fillTexts]
  | cons part parts ih =>
    cases part with
    | plain c => simp [fillSlots, slotCount, fillTexts, ih]
    | slot kind =>
      cases ids with
      | nil => simp [fillSlots, fillTexts, ih]
      | cons id ids => simp [fillSlots, slotCount, fillTexts, ih]

/-! ### The inputs that are shown -/

/-- The keys of the inputs that are shown for a block in an input slot: the arguments that have a
slot in the wording of a procedure, or else all inputs. -/
def shownKeys (block : Block) : List String :=
  match block.mutation with
  | some ⟨some wording, argumentids⟩ =>
    (argumentIds ⟨some wording, argumentids⟩).take (slotCount (cutWording wording.toList))
  | _ => Resolver.valueKeys block

/-- The input under a key, where a key without an input stands for an empty text. -/
def valueAt (block : Block) (key : String) : InputValue :=
  (block.inputs.get? key).getD (.literal "")

/-- The inputs that are shown for a block in an input slot. -/
def shownValues (block : Block) : List InputValue := (shownKeys block).map (valueAt block)

theorem nodup_leadingKeys (opcode : String) : (leadingKeys opcode).Nodup := by
  unfold leadingKeys
  split
  · decide
  · split <;> decide

/-- Every input of a statement is shown once. -/
theorem statementKeys_perm (block : Block) : (statementKeys block).Perm block.inputs.names :=
  preferring_perm (nodup_leadingKeys block.opcode) block.inputs.nodup_names fun _ => .refl _

/-- Every input of a block in an input slot is an operand, once. -/
theorem valueKeys_perm (block : Block) :
    (Resolver.valueKeys block).Perm block.inputs.names := by
  unfold Resolver.valueKeys
  split
  · exact operatorKeys_perm block
  · exact statementKeys_perm block

/-- No input is shown twice, unless it is listed twice as an argument. -/
theorem nodup_shownKeys {block : Block}
    (once : ∀ mutation ∈ block.mutation, (argumentIds mutation).Nodup) :
    (shownKeys block).Nodup := by
  have operands : (Resolver.valueKeys block).Nodup :=
    (valueKeys_perm block).nodup_iff.mpr block.inputs.nodup_names
  unfold shownKeys
  split
  · next called => exact (once _ called).sublist (List.take_sublist _ _)
  · exact operands

/-- An input that is shown and names a block is one of the block's inputs. -/
theorem exists_get?_of_names_valueAt {block : Block} {key id : String}
    (names : (valueAt block key).Names id) :
    ∃ value, block.inputs.get? key = some value ∧ value.Names id := by
  unfold valueAt at names
  cases held : block.inputs.get? key with
  | none => simp [held, InputValue.Names] at names
  | some value => exact ⟨value, rfl, by simpa [held] using names⟩

/-! ### Expansions -/

namespace Resolver

variable (r : Resolver)

/-- The text of a block in an input slot that is not shown as its only field. -/
def phrased (block : Block) (fields texts : List String) : String :=
  match block.mutation with
  | some ⟨some wording, _⟩ => String.ofList (fillTexts (cutWording wording.toList) texts)
  | _ =>
    let params := fields ++ texts.filter fun text => !text.isEmpty
    (r.dictionary.render? block.opcode params).getD (bareValue block.opcode params)

/-- The text of a block in an input slot, made of the texts of its fields and of the inputs that are
shown. -/
def worded (block : Block) (fields texts : List String) : String :=
  match block.inputs.isEmpty && block.fields.size == 1, fields with
  | true, [value] => value
  | _, _ => r.phrased block fields texts

/-- Operands are rendered key by key. A key without an input has no text, and so it is left out. -/
theorem operandsVia_eq_filter (reference : ReferenceText) (block : Block) (keys : List String) :
    r.operandsVia reference block keys = (do
      let texts ← (keys.map (valueAt block)).mapM (r.inputVia reference)
      return texts.filter fun text => !text.isEmpty) := by
  unfold operandsVia
  induction keys with
  | nil => simp
  | cons key keys ih =>
    cases held : block.inputs.get? key with
    | none => simp [held, valueAt, inputVia, ih]
    | some value =>
      have first : valueAt block key = value := by simp [valueAt, held]
      rw [List.filterMap_cons_some held, List.map_cons, List.mapM_cons, List.mapM_cons, first]
      simp only [bind_assoc, pure_bind]
      refine bind_congr fun text => ?_
      -- what is kept of all texts is the first one, if it is kept, and what is kept of the others
      have kept := congrArg (fun rendering : Rendering (List String) => rendering >>= fun later =>
        pure (if text.isEmpty then later else text :: later)) ih
      simp only [bind_assoc, pure_bind] at kept
      cases blank : text.isEmpty with
      | true => simpa [blank] using kept
      | false => simpa [blank] using kept

/-- An expansion that is not shown as its only field renders the inputs that are shown, and words
them. -/
theorem phraseVia_eq_phrased (reference : ReferenceText) (block : Block) (fields : List String) :
    r.phraseVia reference block fields = (do
      let texts ← (shownValues block).mapM (r.inputVia reference)
      return r.phrased block fields texts) := by
  unfold phraseVia procedureVia shownValues shownKeys phrased
  rcases called : block.mutation with - | ⟨- | wording, argumentids⟩
  -- without a wording all inputs are operands
  · simp only [pure_bind, operandsVia_eq_filter, bind_assoc]
  · simp only [pure_bind, operandsVia_eq_filter, bind_assoc]
  · simp only [fillSlots_eq, List.mapM_map, bind_assoc, pure_bind]
    refine congrArg (· >>= _) (congrArg (fun argument => List.mapM argument _) ?_)
    funext id
    simp only [Function.comp_apply, valueAt]
    cases block.inputs.get? id <;> rfl

/-- An expansion renders the inputs that are shown, one after the other, and words them. -/
theorem expandVia_eq_worded (reference : ReferenceText) (block : Block) :
    r.expandVia reference block = (do
      let fields ← liftM (r.fields block)
      let texts ← (shownValues block).mapM (r.inputVia reference)
      return r.worded block fields texts) := by
  rw [expandVia_eq]
  refine bind_congr fun fields => ?_
  unfold worded
  cases lone : block.inputs.isEmpty && block.fields.size == 1 with
  | false => exact r.phraseVia_eq_phrased reference block fields
  | true =>
    match fields with
    | [] => exact r.phraseVia_eq_phrased reference block []
    | first :: second :: rest =>
      exact r.phraseVia_eq_phrased reference block (first :: second :: rest)
    | [value] =>
      -- without inputs there are only empty texts to render
      have blank : valueAt block = fun _ => .literal "" := by
        funext key
        have empty : block.inputs.entries = [] :=
          List.isEmpty_iff.mp (Bool.and_eq_true_iff.mp lone).1
        simp [valueAt, OrderedMap.get?, empty]
      have texts : (shownValues block).mapM (r.inputVia reference) =
          pure ((shownKeys block).map fun _ => "") := by
        rw [shownValues, blank, List.mapM_map]
        exact List.mapM_pure
      simp only [texts, pure_bind]

end Resolver

end ScriptChart.Label
