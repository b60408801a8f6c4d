import Mathlib.Data.Finset.Card
import ScriptChart.Proofs.Digest.SafeId

/-!
# Memos of safe ids

A memo that holds nothing but safe ids, each under the text that it belongs to, answers every
question with the safe id of the text, whether it was asked for before or not. It goes on to hold
nothing else, so it makes no difference which questions came before. What a memo comes to know are
the texts that it was asked for, each of them once.

## Main definitions

* `Memo.Faithful`: a memo holds nothing but safe ids.
* `Memo.askAll`: asking for several texts in turn.

## Main results

* `Memo.Faithful.fst_ask`: what a faithful memo answers.
* `Memo.Faithful.snd_ask`: asking keeps a memo faithful.
* `Memo.Faithful.fst_askAll`, `Memo.mem_names_askAll`: what a memo answers to several questions, and
  what it knows after them.
* `Memo.transparent_askAll`: no answer depends on the questions before it.
-/

namespace ScriptChart.Digest.Memo

/-- A memo holds nothing but safe ids, each under the text that it belongs to. -/
def Faithful (memo : Memo) : Prop :=
  ∀ text id, memo.known.get? text = some id → id = safeId text

theorem faithful_empty : empty.Faithful := by
  intro text id found
  simp [empty, EmptyCollection.emptyCollection, OrderedMap.empty, OrderedMap.get?] at found

theorem Faithful.fst_ask {memo : Memo} (faithful : memo.Faithful) (text : String) :
    (memo.ask text).1 = safeId text := by
  unfold ask
  split
  · next id found => exact faithful text id found
  · rfl

theorem Faithful.snd_ask {memo : Memo} (faithful : memo.Faithful) (text : String) :
    (memo.ask text).2.Faithful := by
  unfold ask
  split
  · exact faithful
  · intro other id found
    rw [OrderedMap.get?_insert] at found
    by_cases same : other = text
    · rw [if_pos same] at found
      rw [same]
      exact (Option.some.inj found).symm
    · rw [if_neg same] at found
      exact faithful other id found

/-! ### Several questions -/

/-- Asks for several texts in turn: the answers, and the memo after the last of them. -/
def askAll (memo : Memo) : List String → List String × Memo
  | [] => ([], memo)
  | text :: rest =>
    let answer := memo.ask text
    let later := answer.2.askAll rest
    (answer.1 :: later.1, later.2)

/-- A faithful memo answers each of several questions with the safe id of the text. -/
theorem Faithful.fst_askAll {memo : Memo} (faithful : memo.Faithful) (texts : List String) :
    (memo.askAll texts).1 = texts.map safeId := by
  induction texts generalizing memo with
  | nil => rfl
  | cons text rest ih =>
    rw [askAll, ih (faithful.snd_ask text), faithful.fst_ask text, List.map_cons]

/-- After a question a memo knows the text, and what it knew before. -/
theorem mem_names_ask (memo : Memo) (text name : String) :
    name ∈ (memo.ask text).2.known.names ↔ name = text ∨ name ∈ memo.known.names := by
  unfold ask
  split
  · next id found =>
    have known : text ∈ memo.known.names := by
      rw [← OrderedMap.contains_iff_mem_names, OrderedMap.contains, found]
      rfl
    refine ⟨.inr, fun asked => ?_⟩
    obtain rfl | inside := asked
    · exact known
    · exact inside
  · rw [OrderedMap.names_insert]
    split
    · next known =>
      refine ⟨.inr, fun asked => ?_⟩
      obtain rfl | inside := asked
      · exact known
      · exact inside
    · rw [List.mem_append, List.mem_singleton, or_comm]

/-- After several questions a memo knows the texts, and what it knew before. -/
theorem mem_names_askAll (memo : Memo) (texts : List String) (name : String) :
    name ∈ (memo.askAll texts).2.known.names ↔ name ∈ texts ∨ name ∈ memo.known.names := by
  induction texts generalizing memo with
  | nil => simp [askAll]
  | cons text rest ih =>
    rw [askAll, ih, mem_names_ask, List.mem_cons, or_left_comm, or_assoc]

/-- A memo that began empty knows as many texts as it was asked for, not counting repetitions. -/
theorem size_askAll_empty (texts : List String) :
    (empty.askAll texts).2.size = texts.toFinset.card := by
  have same : (empty.askAll texts).2.known.names.toFinset = texts.toFinset := by
    ext name
    rw [List.mem_toFinset, List.mem_toFinset, mem_names_askAll]
    simp [empty, EmptyCollection.emptyCollection, OrderedMap.empty, OrderedMap.names]
  rw [← same, List.toFinset_card_of_nodup (OrderedMap.nodup_names _), OrderedMap.names,
    List.length_map]
  rfl

theorem isEmpty_iff_size_eq_zero (memo : Memo) : memo.isEmpty = true ↔ memo.size = 0 := by
  rw [isEmpty, size, OrderedMap.isEmpty, OrderedMap.size, List.isEmpty_iff,
    List.length_eq_zero_iff]

/-- A memo makes no difference to the answers. Whatever a memo that began empty is asked for, it
answers every question as an empty one does: with the digest of the text in UTF-8, written as
thirty-two lower-case hexadecimal digits. It has then as many entries as there were different texts,
and is empty only when there was no question. -/
theorem transparent_askAll (texts : List String) :
    (empty.askAll texts).1 = texts.map (fun text => (empty.ask text).1) ∧
    (∀ text, (empty.ask text).1 = String.ofList (hex (Md5.digest text.toUTF8.toList)) ∧
      (empty.ask text).1.toList.length = 32 ∧
        ∀ c ∈ (empty.ask text).1.toList, c ∈ "0123456789abcdef".toList) ∧
    (empty.askAll texts).2.size = texts.toFinset.card ∧
    ((empty.askAll texts).2.isEmpty = true ↔ texts = []) := by
  have answers : ∀ text, (empty.ask text).1 = safeId text := faithful_empty.fst_ask
  refine ⟨?_, fun text => ?_, size_askAll_empty texts, ?_⟩
  · rw [faithful_empty.fst_askAll]
    exact List.map_congr_left fun text _ => (answers text).symm
  · rw [answers]
    exact ⟨rfl, length_toList_safeId text, fun c => mem_hexDigits_of_mem_safeId⟩
  · rw [isEmpty_iff_size_eq_zero, size_askAll_empty, Finset.card_eq_zero,
      List.toFinset_eq_empty_iff]

/-- A text that is asked for twice counts once, and other texts between make no difference. -/
theorem transparent_askAll_twice :
    'f' ∈ (empty.ask "abc").1.toList ∧ 'f' ∈ "0123456789abcdef".toList ∧
      (empty.askAll ["abc", "", "abc"]).1 =
          ["900150983cd24fb0d6963f7d28e17f72", "d41d8cd98f00b204e9800998ecf8427e",
            "900150983cd24fb0d6963f7d28e17f72"] ∧
        (empty.askAll ["abc", "", "abc"]).2.size = 2 := by
  obtain ⟨answers, forms, size, -⟩ := transparent_askAll ["abc", "", "abc"]
  have inside : 'f' ∈ (empty.ask "abc").1.toList := by decide +kernel
  refine ⟨inside, (forms "abc").2.2 'f' inside, ?_, ?_⟩
  · rw [answers]
    decide +kernel
  · rw [size]
    decide

end ScriptChart.Digest.Memo
