import ScriptChart.Proofs.Flow.Call
import ScriptChart.Proofs.Flow.Climb
import ScriptChart.Proofs.Project.Mention

/-!
# Walks through agreeing targets

A walk looks blocks up under ids that it was given or that blocks mention: those that links lead to,
and those that the search upwards goes through. So walks through two targets that agree on the
first of these ids take the same steps, and these steps belong to ids on which the targets agree.

## Main results

* `ancestors_congr`, `plan_congr`: blocks have the same ancestors and plans in agreeing targets.
* `scriptSteps_congr`: a script takes the same steps in agreeing targets.
* `known_of_mem_scriptSteps`: the steps of a script belong to known ids.
-/

namespace ScriptChart.Flow

open ScriptChart.Project

theorem mentions_of_named? {block : Block} {link : Link} {id : String}
    (named : named? block link = some id) : block.Mentions id := by
  have inputs : ∀ name, block.branch? name = some id → block.Mentions id := by
    intro name branch
    unfold Block.branch? at branch
    split at branch
    · next other held =>
      obtain rfl := Option.some.inj branch
      exact .input held rfl
    · contradiction
  cases link with
  | next => exact .next named
  | substack => exact inputs _ named
  | substack2 => exact inputs _ named

section

variable {known : String → Prop} {target other : Target}
  (agree : target.AgreesOn known other) {id : String} {block : Block}
include agree

/-! ### Links -/

section

variable (inside : known id) (present : target.block? id = some block)
include inside present

theorem known_of_named? {link : Link} {next : String} (named : named? block link = some next) :
    known next :=
  agree.closed inside present (mentions_of_named? named)

theorem destination?_congr : destination? other block = destination? target block := by
  funext link
  unfold destination?
  cases named : named? block link with
  | none => rfl
  | some next =>
    have there := agree.hasBlock (known_of_named? agree inside present named)
    rw [Option.filter_some, Option.filter_some, there]

theorem dangling?_congr : dangling? other block = dangling? target block := by
  funext link
  unfold dangling?
  cases named : named? block link with
  | none => rfl
  | some next =>
    have there := agree.hasBlock (known_of_named? agree inside present named)
    rw [Option.filter_some, Option.filter_some, there]

theorem known_of_destination? {link : Link} {next : String}
    (leads : destination? target block link = some next) : known next :=
  known_of_named? agree inside present (named?_of_destination? leads)

/-- A block has the same plan in agreeing targets. -/
theorem plan_congr (continuation : Option Node) :
    plan other id block continuation = plan target id block continuation := by
  simp only [plan, constructParts, plainParts, bodyParts, branchParts, rejoinParts, linkParts,
    danglingParts, noticeDangling, destination?_congr agree inside present,
    dangling?_congr agree inside present]

end

/-! ### Ancestors -/

theorem ancestorsFrom_congr {above : Option String} (inside : ∀ id ∈ above, known id)
    (count : Nat) (met : List String) :
    ancestorsFrom other count met above = ancestorsFrom target count met above := by
  -- induction on the number of ancestors: each mentions the next one as its parent
  induction count generalizing met above with
  | zero => rfl
  | succ count ih =>
    cases above with
    | none => rfl
    | some id =>
      have here := inside id rfl
      rw [ancestorsFrom, ancestorsFrom, agree.block? here]
      cases present : target.block? id with
      | none => rfl
      | some block =>
        have parents : ∀ next ∈ block.parent, known next :=
          fun next above => agree.closed here present (.parent above)
        simp only [ih parents]

theorem known_of_parent (inside : known id) :
    ∀ above ∈ (target.block? id).bind fun block => block.parent, known above := by
  intro above parent
  obtain ⟨block, present, parent⟩ := Option.bind_eq_some_iff.mp parent
  exact agree.closed inside present (.parent parent)

/-- A block has the same ancestors in agreeing targets, which may have different numbers of
blocks. -/
theorem ancestors_congr (inside : known id) : ancestors other id = ancestors target id := by
  rw [ancestors_eq (Nat.le_max_right target.blocks.size other.blocks.size),
    ancestors_eq (Nat.le_max_left target.blocks.size other.blocks.size), agree.block? inside]
  exact ancestorsFrom_congr agree (known_of_parent agree inside) _ _

theorem known_of_mem_ancestorsFrom {above : Option String} (inside : ∀ id ∈ above, known id)
    {count : Nat} {met : List String} {ancestor : String × Block}
    (member : ancestor ∈ ancestorsFrom target count met above) :
    known ancestor.1 ∧ target.block? ancestor.1 = some ancestor.2 := by
  induction count generalizing met above with
  | zero => simp [ancestorsFrom] at member
  | succ count ih =>
    cases above with
    | none => simp [ancestorsFrom] at member
    | some id =>
      have here := inside id rfl
      rw [ancestorsFrom] at member
      split at member
      · simp at member
      · cases present : target.block? id with
        | none => simp [present] at member
        | some block =>
          rw [present, List.mem_cons] at member
          obtain rfl | member := member
          · exact ⟨here, present⟩
          · exact ih (fun next above => agree.closed here present (.parent above)) member

theorem firstOffer?_congr (ends : Ends) (start child : String) {above : List (String × Block)}
    (inside : ∀ ancestor ∈ above,
      known ancestor.1 ∧ target.block? ancestor.1 = some ancestor.2) :
    firstOffer? other ends start child above = firstOffer? target ends start child above := by
  induction above generalizing child with
  | nil => rfl
  | cons ancestor above ih =>
    obtain ⟨here, present⟩ := inside ancestor List.mem_cons_self
    rw [firstOffer?, firstOffer?, offer?, offer?, destination?_congr agree here present,
      ih _ fun other later => inside other (List.mem_cons_of_mem _ later)]

/-- Looking upwards finds the same in agreeing targets. -/
theorem enclosing?_congr (ends : Ends) (inside : known id) :
    enclosing? other ends id = enclosing? target ends id := by
  rw [enclosing?, enclosing?, ancestors_congr agree inside]
  exact firstOffer?_congr agree ends id id fun ancestor =>
    known_of_mem_ancestorsFrom agree (known_of_parent agree inside)

/-! ### Walks -/

omit agree in
theorem runParts_congr {walker walker' : Walker} {parts : List Part}
    (each : ∀ part ∈ parts, part.run other walker' = part.run target walker) :
    runParts other walker' parts = runParts target walker parts := by
  induction parts with
  | nil => rfl
  | cons part rest ih =>
    funext progress
    rw [runParts, runParts, each part List.mem_cons_self,
      ih fun later inside => each later (List.mem_cons_of_mem part inside)]

/-- A walk from a known block takes the same steps in agreeing targets. -/
theorem walk_congr (inside : known id) (links : Nat) (continuation : Option Node)
    (progress : Progress) :
    walk other links id continuation progress = walk target links id continuation progress := by
  -- induction on the links that may still be followed, which bounds the walks of a plan
  induction links generalizing id continuation progress with
  | zero => simp only [walk, agree.block? inside]
  | succ links ih =>
    obtain passed | ⟨block, fresh, present⟩ := passed_or_fresh target id progress
    · rw [walk_of_passed target id passed,
        walk_of_passed other id (passed.imp_right (agree.block? inside).trans)]
    · have parts : ∀ part ∈ plan target id block continuation,
          part.run other (walk other links) = part.run target (walk target links) := by
        intro part planned
        funext progress
        cases part with
        | emit step | opening join => rfl
        | rejoin join around =>
          obtain ⟨⟨kind, -, -, rfl⟩, -, -⟩ := exists_kind_of_rejoin_mem_plan planned
          rw [Part.run, Part.run, enclosing?_congr agree _ inside]
        | walk visits first around =>
          obtain ⟨link, -, leads, -⟩ := exists_link_of_walk_mem_plan planned
          simp only [Part.run, ih (known_of_destination? agree inside present leads)]
      rw [walk_eq_runParts target id fresh present,
        walk_eq_runParts other id fresh ((agree.block? inside).trans present),
        plan_congr agree inside present, runParts_congr parts]

/-- A script takes the same steps in agreeing targets. -/
theorem scriptSteps_congr {entry : String} (inside : known entry) :
    scriptSteps other entry = scriptSteps target entry := by
  rw [scriptSteps, scriptSteps, walk_congr agree inside]

/-- The calls of a script walk from known blocks. -/
theorem known_of_made {call next : Call} (inside : known call.id)
    (made : Call.Made target call next) : known next.id := by
  induction made with
  | refl => exact inside
  | tail made makes ih =>
    obtain ⟨left, visits, meets⟩ := makes
    obtain ⟨block, more, draws, -, planned⟩ := meets.mem_plan
    obtain ⟨link, -, leads, -⟩ := exists_link_of_walk_mem_plan planned
    exact known_of_destination? agree ih draws.present leads

/-- The steps of a script belong to known blocks. -/
theorem known_of_mem_scriptSteps {entry : String} (inside : known entry) {step : Step}
    (walked : step ∈ scriptSteps target entry) : known step.owner := by
  obtain ⟨call, made, takes⟩ := Call.mem_scriptSteps_iff.mp walked
  obtain ⟨own, -⟩ := takes.exists_draws
  rw [own]
  exact known_of_made agree inside made

end

end ScriptChart.Flow
