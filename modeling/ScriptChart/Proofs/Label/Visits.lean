import ScriptChart.Proofs.Label.Slots

/-!
# What is come to on the way

Rendering a value comes to references one after the other. Here this is told by rules that know no
number of levels: a reference is cut where the trail is at the limit, it is refused when its block
was expanded before, and else the inputs of its block are rendered in turn, one level deeper on the
same trail. The rules keep an account of the texts, the faults and the visits, each of which says
where a reference stands and what the trail is at that time.

The rules come to an end for every list of queries, with the texts, the faults and the trail of the
rendering. So what the rules keep is true of renderings, and it is shown by induction on them.

## Main definitions

* `Query`, `Asked`: what is asked for, and where the question comes from.
* `Visit`, `Account`: a reference that is come to, and all that is noted on the way.
* `Resolver.Runs`: the rules.

## Main results

* `Resolver.exists_runs`: the rules come to an end, whatever refers to what.
* `Resolver.Runs.run_answers`: they come out with the rendering.
* `Resolver.Runs.depth_final`: they come out as deep as they went in.
-/

namespace ScriptChart.Label

open ScriptChart.Phrase ScriptChart.Project

/-- What is asked for: the text of an input, or that of a block as if it sat in an input slot. -/
inductive Query where
  | input (value : InputValue)
  | reference (id : String) (block : Block)

/-- Where a question comes from: from outside, or from the expansion of a block, which asks for the
inputs that it shows in order. -/
inductive Place where
  | outside
  | shown (owner : String) (index : Nat)
deriving DecidableEq

/-- A question: what is asked for at a place. -/
structure Asked where
  place : Place
  query : Query

/-- A reference that is come to: where it stands, the block that it names, and the trail then. -/
structure Visit where
  place : Place
  id : String
  trail : Trail

/-- What is noted while questions are answered: the texts, the references that are come to, the
faults, and the trail after it all. -/
structure Account where
  texts : List String
  visits : List Visit
  faults : List Diagnostic
  final : Trail

/-- The account with another answer in front, and what was noted for it. -/
def Account.behind (account : Account) (text : String) (visits : List Visit)
    (faults : List Diagnostic) : Account :=
  ⟨text :: account.texts, visits ++ account.visits, faults ++ account.faults, account.final⟩

/-- What an account says of the rendering. -/
def Account.report (account : Account) : Report (List String × Trail) :=
  ⟨(account.texts, account.final), account.faults⟩

/-- The questions that the expansion of a block asks. -/
def slots (id : String) (block : Block) : List Asked :=
  (shownValues block).zipIdx.map fun shown => ⟨.shown id shown.2, .input shown.1⟩

namespace Resolver

variable (r : Resolver)

/-- The answer to a query. -/
def answer : Query → Rendering String
  | .input value => r.input value
  | .reference id block => r.reference id block

/-- The answers to questions that are asked one after the other. -/
def answers (asked : List Asked) : Rendering (List String) :=
  asked.mapM fun question => r.answer question.query

/-- How questions are answered one after the other from a trail, with the account of it. -/
inductive Runs : List Asked → Trail → Account → Prop
  | done {trail : Trail} : Runs [] trail ⟨[], [], [], trail⟩
  | literal {place : Place} {text : String} {rest : List Asked} {trail : Trail} {account : Account}
      (later : Runs rest trail account) :
      Runs (⟨place, .input (.literal text)⟩ :: rest) trail (account.behind text [] [])
  | broadcast {place : Place} {given : String} {id : Option String} {rest : List Asked}
      {trail : Trail} {account : Account} (later : Runs rest trail account) :
      Runs (⟨place, .input (.broadcast given id)⟩ :: rest) trail
        (account.behind (r.broadcast given id).value [] (r.broadcast given id).diagnostics)
  | nested {place : Place} {inner : InputValue} {rest : List Asked} {trail : Trail}
      {account : Account} (same : Runs (⟨place, .input inner⟩ :: rest) trail account) :
      Runs (⟨place, .input (.nested inner)⟩ :: rest) trail account
  | missing {place : Place} {id : String} {rest : List Asked} {trail : Trail} {account : Account}
      (absent : r.target.block? id = none) (later : Runs rest trail account) :
      Runs (⟨place, .input (.block id)⟩ :: rest) trail
        (account.behind id [] [.missingBlock r.target.name id])
  | found {place : Place} {id : String} {block : Block} {rest : List Asked} {trail : Trail}
      {account : Account} (present : r.target.block? id = some block)
      (same : Runs (⟨place, .reference id block⟩ :: rest) trail account) :
      Runs (⟨place, .input (.block id)⟩ :: rest) trail account
  /-- Nothing is expanded at the limit. -/
  | cut {place : Place} {id : String} {block : Block} {rest : List Asked} {trail : Trail}
      {account : Account} (deep : expansionLimit ≤ trail.depth)
      (later : Runs rest trail account) :
      Runs (⟨place, .reference id block⟩ :: rest) trail
        (account.behind (r.dictionary.synthetic .runaway) [⟨place, id, trail⟩]
          [.depthLimit r.target.name id])
  /-- No block is expanded that was expanded before. -/
  | refuse {place : Place} {id : String} {block : Block} {rest : List Asked} {trail : Trail}
      {account : Account} (shallow : trail.depth < expansionLimit) (known : id ∈ trail.expanded)
      (later : Runs rest trail account) :
      Runs (⟨place, .reference id block⟩ :: rest) trail
        (account.behind (r.dictionary.synthetic .circularReference) [⟨place, id, trail⟩]
          [.circularReference r.target.name id])
  /-- Any other block is expanded one level deeper, and what was expanded stays known. -/
  | expand {place : Place} {id : String} {block : Block} {rest : List Asked} {trail : Trail}
      {inner account : Account} (shallow : trail.depth < expansionLimit)
      (fresh : id ∉ trail.expanded) (inside : Runs (slots id block) (trail.enter id) inner)
      (later : Runs rest inner.final.leave account) :
      Runs (⟨place, .reference id block⟩ :: rest) trail
        (account.behind (r.worded block (r.fields block).value inner.texts)
          (⟨place, id, trail⟩ :: inner.visits) ((r.fields block).diagnostics ++ inner.faults))

/-! ### Answers -/

theorem answers_slots (id : String) (block : Block) :
    r.answers (slots id block) = (shownValues block).mapM r.input := by
  rw [answers, slots, List.mapM_map]
  change (shownValues block).zipIdx.mapM (r.input ∘ Prod.fst) = _
  rw [← List.mapM_map, List.zipIdx_map_fst]

/-- The first answer and the others, which are given on the trail that it leaves. -/
theorem run_answers_cons {question : Asked} {rest : List Asked} {trail after : Trail}
    {text : String} {faults : List Diagnostic} {account : Account}
    (first : (r.answer question.query).run trail = ⟨(text, after), faults⟩)
    (later : (r.answers rest).run after = account.report) (visits : List Visit) :
    (r.answers (question :: rest)).run trail = (account.behind text visits faults).report := by
  rw [answers, List.mapM_cons, StateT.run_bind, first]
  change _ = (⟨(text :: account.report.value.1, account.report.value.2),
    faults ++ account.report.diagnostics⟩ : Report (List String × Trail))
  rw [← later]
  ext <;> simp [answers]

theorem run_input_broadcast (given : String) (id : Option String) (trail : Trail) :
    (r.input (.broadcast given id)).run trail =
      ⟨((r.broadcast given id).value, trail), (r.broadcast given id).diagnostics⟩ := by
  ext <;> simp [input, inputVia]

theorem run_input_of_absent {id : String} (absent : r.target.block? id = none) (trail : Trail) :
    (r.input (.block id)).run trail = ⟨(id, trail), [.missingBlock r.target.name id]⟩ := by
  simp only [input, inputVia, absent]
  rfl

theorem input_of_present {id : String} {block : Block}
    (present : r.target.block? id = some block) : r.input (.block id) = r.reference id block := by
  simp only [input, inputVia, present]

/-- At the limit a reference is cut. -/
theorem run_reference_of_le {trail : Trail} (deep : expansionLimit ≤ trail.depth) (id : String)
    (block : Block) :
    (r.reference id block).run trail =
      ⟨(r.dictionary.synthetic .runaway, trail), [.depthLimit r.target.name id]⟩ := by
  change (r.referenceWithin (expansionLimit - trail.depth) id block).run trail = _
  rw [Nat.sub_eq_zero_of_le deep]
  rfl

/-- A block that was expanded before is refused. -/
theorem run_reference_of_mem {trail : Trail} (shallow : trail.depth < expansionLimit)
    {id : String} (known : id ∈ trail.expanded) (block : Block) :
    (r.reference id block).run trail =
      ⟨(r.dictionary.synthetic .circularReference, trail),
        [.circularReference r.target.name id]⟩ := by
  obtain ⟨levels, left⟩ : ∃ levels, levels + 1 + trail.depth = expansionLimit :=
    ⟨expansionLimit - trail.depth - 1, by omega⟩
  rw [r.run_reference left]
  simp only [referenceWithin, StateT.run_bind, StateT.run_get, pure_bind, List.contains_eq_mem,
    known, decide_true, if_true]
  rfl

/-- Any other block is worded from its fields and from the inputs that it shows, which are rendered
one level deeper. -/
theorem run_reference_of_not_mem {trail : Trail} (shallow : trail.depth < expansionLimit)
    {id : String} (fresh : id ∉ trail.expanded) (block : Block) :
    (r.reference id block).run trail =
      let inside := (r.answers (slots id block)).run (trail.enter id)
      ⟨(r.worded block (r.fields block).value inside.value.1, inside.value.2.leave),
        (r.fields block).diagnostics ++ inside.diagnostics⟩ := by
  obtain ⟨levels, left⟩ : ∃ levels, levels + 1 + trail.depth = expansionLimit :=
    ⟨expansionLimit - trail.depth - 1, by omega⟩
  have deeper : levels + (trail.enter id).depth = expansionLimit := by
    simp only [Trail.enter]
    omega
  rw [r.run_reference left, r.run_referenceWithin_succ fresh, expandVia_eq_worded, answers_slots,
    r.run_mapM_input deeper]
  ext <;> simp

namespace Runs

section

variable {r} {asked : List Asked} {trail : Trail} {account : Account}

/-- The rules come out with the rendering. -/
theorem run_answers (runs : r.Runs asked trail account) :
    (r.answers asked).run trail = account.report := by
  induction runs with
  | done => rfl
  | literal _ ih => exact r.run_answers_cons rfl ih _
  | broadcast _ ih =>
    refine r.run_answers_cons ?_ ih _
    exact r.run_input_broadcast _ _ _
  | nested _ ih => exact ih
  | missing absent _ ih =>
    refine r.run_answers_cons ?_ ih _
    exact r.run_input_of_absent absent _
  | found present _ ih =>
    rw [← ih, answers, answers, List.mapM_cons, List.mapM_cons, answer, answer,
      r.input_of_present present]
  | cut deep _ ih =>
    refine r.run_answers_cons ?_ ih _
    exact r.run_reference_of_le deep _ _
  | refuse shallow known _ ih =>
    refine r.run_answers_cons ?_ ih _
    exact r.run_reference_of_mem shallow known _
  | expand shallow fresh _ _ inside ih =>
    refine r.run_answers_cons ?_ ih _
    rw [answer, r.run_reference_of_not_mem shallow fresh, inside]
    rfl

/-- The account of a single question. -/
theorem run_answer {place : Place} {query : Query} (runs : r.Runs [⟨place, query⟩] trail account) :
    ∃ text, account.texts = [text] ∧
      (r.answer query).run trail = ⟨(text, account.final), account.faults⟩ := by
  have rendered := runs.run_answers
  have single : (r.answers [⟨place, query⟩]).run trail =
      (fun result => ([result.1], result.2)) <$> (r.answer query).run trail := by
    simp [answers]
  rw [single] at rendered
  have value := congrArg Report.value rendered
  have faults := congrArg Report.diagnostics rendered
  simp only [Report.value_map, Report.diagnostics_map, Account.report, Prod.mk.injEq]
    at value faults
  exact ⟨_, value.1.symm, Report.ext (Prod.ext rfl value.2) faults⟩

/-- The account of a single question on a new trail. -/
theorem freshly_answer {place : Place} {query : Query}
    (runs : r.Runs [⟨place, query⟩] .start account) :
    ∃ text, account.texts = [text] ∧ (r.answer query).freshly = ⟨text, account.faults⟩ := by
  obtain ⟨text, texts, rendered⟩ := runs.run_answer
  refine ⟨text, texts, ?_⟩
  rw [Rendering.freshly, rendered]
  ext <;> simp

/-- The rules come out as deep as they went in. -/
theorem depth_final (runs : r.Runs asked trail account) : account.final.depth = trail.depth := by
  induction runs with
  | done => rfl
  | literal _ ih | broadcast _ ih | missing _ _ ih | cut _ _ ih | refuse _ _ _ ih => exact ih
  | nested _ ih | found _ _ ih => exact ih
  -- the level that an expansion goes down is the one that is left after it
  | expand _ _ _ _ inside ih => simp [Account.behind, ih, Trail.leave, inside, Trail.enter]

end

end Runs

/-! ### The rules come to an end -/

section

variable {r} {place : Place} {rest : List Asked} {trail : Trail}

/-- A reference is accounted for once its inside is, if it is expanded at all. -/
theorem exists_runs_reference {id : String} {block : Block}
    (inside : trail.depth < expansionLimit →
      ∃ inner, r.Runs (slots id block) (trail.enter id) inner)
    (later : ∀ after : Trail, after.depth = trail.depth → ∃ account, r.Runs rest after account) :
    ∃ account, r.Runs (⟨place, .reference id block⟩ :: rest) trail account := by
  obtain ⟨account, same⟩ := later trail rfl
  by_cases shallow : trail.depth < expansionLimit
  · by_cases known : id ∈ trail.expanded
    · exact ⟨_, .refuse shallow known same⟩
    · obtain ⟨inner, inside⟩ := inside shallow
      obtain ⟨account, later⟩ := later inner.final.leave
        (by simp [Trail.leave, inside.depth_final, Trail.enter])
      exact ⟨_, .expand shallow known inside later⟩
  · exact ⟨_, .cut (by omega) same⟩

/-- An input is accounted for once the reference in it is. -/
theorem exists_runs_input (value : InputValue)
    (references : ∀ id block,
      ∃ account, r.Runs (⟨place, .reference id block⟩ :: rest) trail account)
    (later : ∃ account, r.Runs rest trail account) :
    ∃ account, r.Runs (⟨place, .input value⟩ :: rest) trail account := by
  obtain ⟨account, later⟩ := later
  induction value with
  | literal text => exact ⟨_, .literal later⟩
  | broadcast given id => exact ⟨_, .broadcast later⟩
  | nested inner ih =>
    obtain ⟨account, same⟩ := ih
    exact ⟨account, .nested same⟩
  | block id =>
    cases found : r.target.block? id with
    | none => exact ⟨_, .missing found later⟩
    | some block =>
      obtain ⟨account, same⟩ := references id block
      exact ⟨account, .found found same⟩

end

/-- There is an account of any questions on any trail. -/
theorem exists_runs (asked : List Asked) (trail : Trail) :
    ∃ account, r.Runs asked trail account := by
  -- induction on the levels that are left: every expansion takes one of them
  obtain ⟨levels, left⟩ : ∃ levels, levels = expansionLimit - trail.depth := ⟨_, rfl⟩
  induction levels using Nat.strongRecOn generalizing asked trail with
  | _ levels deeper =>
    -- and within one level on the questions, which are all asked at one depth
    induction asked generalizing trail with
    | nil => exact ⟨_, .done⟩
    | cons question rest ih =>
      have later : ∀ after : Trail, after.depth = trail.depth →
          ∃ account, r.Runs rest after account := by
        intro after same
        exact ih after (by rw [left, same])
      have references : ∀ id block,
          ∃ account, r.Runs (⟨question.place, .reference id block⟩ :: rest) trail account := by
        intro id block
        refine exists_runs_reference (fun shallow => ?_) later
        exact deeper _ (by simp only [Trail.enter]; omega) _ _ rfl
      obtain ⟨place, value | ⟨id, block⟩⟩ := question
      · exact exists_runs_input value references (later trail rfl)
      · exact references id block

end Resolver

end ScriptChart.Label
