import Mathlib.Algebra.Group.Nat.Defs
import Std.Data.String.ToNat
import ScriptChart.Proofs.Flow.Coverage

/-!
# How often a script repeats a block

The body of a loop is walked on a copy of what was visited, so the flow after the loop may enter the
same blocks again, whatever the links of the target are. A block appears at most once more than
loops are expanded on the walk. But a loop that is met both in a body and after it is expanded
twice, and so the number of expansions is bounded by a power of two only, and is that large when
every loop leads to the next one both ways.

Both bounds are budgets: what was not visited is left to spend, and each loop pays for the copy that
its body is walked on.

## Main definitions

* `isLoop`, `loops`, `expansions`: the loops of a target, and how often a script expands loops.
* `Budget`: bounds that every block and every copy keeps.
* `nest`: loops that lead to the next one both ways.

## Main results

* `Budget.keptBy_walk`: what holds of every block holds of walks.
* `length_declaring_le_expansions`, `expansions_lt_two_pow`: the two bounds.
* `length_declaring_nest`: the bounds are attained.
-/

namespace ScriptChart.Flow

open ScriptChart.Project

/-- Whether a block is a loop, whose body is walked on a copy of what was visited. -/
def isLoop (block : Block) : Bool :=
  match block.control? with
  | some .forever | some .repeatTimes | some .repeatUntil => true
  | _ => false

/-- The loops of a target. -/
def loops (target : Target) : List String :=
  (target.blocks.entries.filter fun entry => isLoop entry.2).map Prod.fst

/-- Whether a step draws a loop whose links are followed. -/
def isExpansion (target : Target) : Step → Bool
  | .block id links => links != 0 && (target.block? id).any isLoop
  | _ => false

/-- How often a script expands loops. -/
def expansions (target : Target) (entry : String) : Nat :=
  (scriptSteps target entry).countP (isExpansion target)

/-! ### Copies of what was visited -/

/-- Whether a part walks on a copy of what was visited. -/
def Part.isForked : Part → Bool
  | .walk .forked _ _ => true
  | _ => false

section

variable (target : Target) (id : String) (block : Block) (continuation : Option Node)

theorem countP_isForked_linkParts_le {link : Link} {visits : Visits} {enter : Node → Step}
    {other : Option Node} {absent : List Part} (nothing : absent.countP Part.isForked = 0) :
    (linkParts target id block link visits enter other absent).countP Part.isForked ≤
      if visits = .forked then 1 else 0 := by
  unfold linkParts danglingParts noticeDangling
  cases destination? target block link with
  | some first => cases visits <;> simp [Part.isForked]
  | none => cases dangling? target block link <;> simp [Part.isForked, nothing]

theorem countP_isForked_branchParts_le (visits : Visits) (link : Link) (answer : Answer)
    (join : Node) : (branchParts target id block visits link answer join).countP Part.isForked ≤
      if visits = .forked then 1 else 0 :=
  countP_isForked_linkParts_le target id block rfl

theorem countP_isForked_rejoinParts (join : Node) :
    (rejoinParts target id block join continuation).countP Part.isForked = 0 :=
  Nat.le_zero.mp (countP_isForked_linkParts_le target id block rfl)

theorem countP_isForked_plainParts :
    (plainParts target id block continuation).countP Part.isForked = 0 := by
  refine Nat.le_zero.mp (countP_isForked_linkParts_le target id block ?_)
  split
  · rfl
  · cases continuation <;> rfl

/-- The branches of conditionals are walked on what was visited, and the body of a loop on one
copy of it. -/
theorem countP_isForked_constructParts_le (kind : ControlKind) (join : Node) :
    (constructParts target id block kind join continuation).countP Part.isForked ≤
      if branchVisits kind = .forked then 1 else 0 := by
  cases kind with
  | forever =>
    have body : (bodyParts target id block join).countP Part.isForked ≤ 1 :=
      countP_isForked_linkParts_le target id block rfl
    simpa [constructParts, branchVisits, Part.isForked] using body
  | ifThen =>
    have first := countP_isForked_branchParts_le target id block .shared .substack .yes join
    simpa [constructParts, branchVisits, Part.isForked, countP_isForked_rejoinParts] using first
  | ifElse =>
    have first := countP_isForked_branchParts_le target id block .shared .substack .yes join
    have second := countP_isForked_branchParts_le target id block .shared .substack2 .no join
    simp only [reduceCtorEq, if_false, Nat.le_zero] at first second
    simp only [constructParts, List.countP_append, first, second, countP_isForked_rejoinParts,
      Nat.add_zero, Nat.zero_le]
  | repeatTimes | repeatUntil =>
    simpa [constructParts, branchVisits, Part.isForked, countP_isForked_rejoinParts] using
      countP_isForked_branchParts_le target id block .forked .substack _ join

/-- Only loops walk on a copy of what was visited, and only for their body. -/
theorem countP_isForked_plan_le :
    (plan target id block continuation).countP Part.isForked ≤ if isLoop block then 1 else 0 := by
  unfold plan isLoop
  cases block.control? with
  | none => simp only [countP_isForked_plainParts, Nat.zero_le]
  | some kind =>
    have rest := countP_isForked_constructParts_le target id block continuation kind
      ⟨id, joinRole kind⟩
    simp only [List.countP_cons_of_neg (show ¬ (Part.opening _).isForked = true by
      simp [Part.isForked])]
    cases kind <;> exact rest

variable {target id block continuation}

/-- The steps that a plan takes itself stand beside its block. -/
theorem isBeside_run (walker : Walker) {part : Part}
    (inside : part ∈ plan target id block continuation) (progress : Progress) :
    (∃ visits first other, part = .walk visits first other) ∨
      (part.run target walker progress).progress.visited = progress.visited ∧
        ∀ step ∈ (part.run target walker progress).steps, step.IsBeside id := by
  cases part with
  | walk visits first other => exact .inl ⟨visits, first, other, rfl⟩
  | emit step =>
    have settled : step ∈ (plan target id block continuation).flatMap Part.settled :=
      List.mem_flatMap.mpr ⟨_, inside, List.mem_singleton_self step⟩
    refine .inr ⟨rfl, fun other taken => ?_⟩
    rw [List.mem_singleton.mp taken]
    exact isBeside_plan target id block continuation step settled
  | opening join =>
    obtain ⟨kind, -, rfl⟩ := exists_kind_of_opening_mem_plan inside
    refine .inr ⟨rfl, fun other taken => ?_⟩
    rw [List.mem_singleton.mp taken]
    exact Step.isBeside_join id kind
  | rejoin join other =>
    obtain ⟨⟨kind, -, -, rfl⟩, -, -⟩ := exists_kind_of_rejoin_mem_plan inside
    refine .inr ⟨rfl, fun step taken => ?_⟩
    rw [List.mem_singleton.mp taken]
    exact Step.isBeside_rejoin id _ _ _

end

/-! ### Budgets -/

/-- A budget of a target: what is left for blocks that were not visited pays for the steps that
spend, beside what steps earn. A copy of what was visited costs what may be left after it. -/
structure Budget (target : Target) where
  spent : Step → Bool
  earned : Step → Bool
  left : List String → Nat
  copy : List String → Nat
  left_le : ∀ {before after}, before ⊆ after → left before ≤ left after + copy before
  copy_le : ∀ {before after}, before ⊆ after → copy after ≤ copy before
  draw : ∀ {id block visited} links, id ∉ visited → target.block? id = some block →
    (if spent (.block id links) then 1 else 0) + left (id :: visited) +
        (if links ≠ 0 ∧ isLoop block then copy (id :: visited) else 0) ≤
      left visited + if earned (.block id links) then 1 else 0
  beside : ∀ {id step}, step.IsBeside id → spent step = false
  cut : ∀ id, spent (.cut id) = false

namespace Budget

variable {target : Target} (budget : Budget target)

/-- A walker keeps a budget when it does not spend more than what is used up and what it earns. -/
def KeptBy (walker : Walker) : Prop :=
  ∀ first continuation progress,
    progress.visited ⊆ (walker first continuation progress).progress.visited ∧
      (walker first continuation progress).steps.countP budget.spent +
          budget.left (walker first continuation progress).progress.visited ≤
        budget.left progress.visited +
          (walker first continuation progress).steps.countP budget.earned

variable {walker : Walker} {id : String} {block : Block} {continuation : Option Node}

/-- A part keeps the budget, but for the copy that it may walk on. -/
theorem countP_run_le (walks : budget.KeptBy walker) {part : Part}
    (inside : part ∈ plan target id block continuation) (progress : Progress) :
    progress.visited ⊆ (part.run target walker progress).progress.visited ∧
      (part.run target walker progress).steps.countP budget.spent +
          budget.left (part.run target walker progress).progress.visited ≤
        budget.left progress.visited +
          (part.run target walker progress).steps.countP budget.earned +
          (if part.isForked then budget.copy progress.visited else 0) := by
  obtain ⟨visits, first, other, rfl⟩ | ⟨same, beside⟩ :=
    isBeside_run walker inside progress
  · obtain ⟨grows, kept⟩ := walks first other progress
    cases visits with
    | shared => exact ⟨grows, by simpa [Part.isForked] using kept⟩
    | forked =>
      -- what is left for the copy is lost
      have lost := budget.left_le grows
      refine ⟨List.Subset.refl _, ?_⟩
      simp only [Part.run, Outcome.forgetVisits, Part.isForked, if_true]
      omega
  · have nothing : (part.run target walker progress).steps.countP budget.spent = 0 :=
      List.countP_eq_zero.mpr fun step taken => by simp [budget.beside (beside step taken)]
    rw [same, nothing]
    exact ⟨List.Subset.refl _, by omega⟩

/-- Parts of a plan keep the budget, but for the copies that they walk on. -/
theorem countP_runParts_le (walks : budget.KeptBy walker) {parts : List Part}
    (inside : parts ⊆ plan target id block continuation) (progress : Progress) :
    progress.visited ⊆ (runParts target walker parts progress).progress.visited ∧
      (runParts target walker parts progress).steps.countP budget.spent +
          budget.left (runParts target walker parts progress).progress.visited ≤
        budget.left progress.visited +
          (runParts target walker parts progress).steps.countP budget.earned +
          parts.countP Part.isForked * budget.copy progress.visited := by
  induction parts generalizing progress with
  | nil => exact ⟨List.Subset.refl _, by simp [runParts]⟩
  | cons part rest ih =>
    obtain ⟨first, others⟩ := List.cons_subset.mp inside
    obtain ⟨grows, one⟩ := budget.countP_run_le walks first progress
    obtain ⟨grows', more⟩ := ih others (part.run target walker progress).progress
    refine ⟨List.Subset.trans grows grows', ?_⟩
    -- a copy costs no more later on
    have cheaper := Nat.mul_le_mul_left (rest.countP Part.isForked) (budget.copy_le grows)
    simp only [runParts, Outcome.steps_andThen, Outcome.progress_andThen, List.countP_append,
      List.countP_cons, Nat.add_mul]
    cases forked : part.isForked <;>
      simp only [forked, if_true, Bool.false_eq_true, if_false, Nat.one_mul, Nat.zero_mul]
        at one ⊢ <;> omega

/-- Walks keep the budget. -/
theorem keptBy_walk (links : Nat) : budget.KeptBy (walk target links) := by
  -- induction on the links that may still be followed
  induction links with
  | zero =>
    intro id continuation progress
    refine ⟨visited_subset_walk target 0 id continuation progress, ?_⟩
    obtain passed | ⟨block, fresh, present⟩ := passed_or_fresh target id progress
    · simp [walk_of_passed target id passed]
    · have drawn := budget.draw 0 fresh present
      rw [walk_zero target id fresh present]
      simp only [Outcome.steps_emit, Outcome.progress_emit, Progress.visit, List.countP_cons,
        List.countP_nil, budget.cut, ne_eq, not_true_eq_false, false_and, if_false,
        Bool.false_eq_true] at drawn ⊢
      omega
  | succ links ih =>
    intro id continuation progress
    refine ⟨visited_subset_walk target (links + 1) id continuation progress, ?_⟩
    obtain passed | ⟨block, fresh, present⟩ := passed_or_fresh target id progress
    · simp [walk_of_passed target id passed]
    · have drawn := budget.draw (links + 1) fresh present
      obtain ⟨-, rest⟩ := budget.countP_runParts_le ih
        (List.Subset.refl (plan target id block continuation)) (progress.visit id)
      have copies := Nat.mul_le_mul_right (budget.copy (id :: progress.visited))
        (countP_isForked_plan_le target id block continuation)
      rw [walk_eq_runParts target id fresh present]
      simp only [Outcome.steps_after, Outcome.progress_after, List.singleton_append,
        List.countP_cons, Progress.visit] at rest ⊢
      cases loop : isLoop block with
      | false =>
        simp only [loop, Bool.false_eq_true, and_false, if_false, Nat.zero_mul] at drawn copies
        omega
      | true =>
        simp only [loop, ne_eq, Nat.add_eq_zero_iff, Nat.succ_ne_self, and_false,
          not_false_eq_true, and_self, if_true, Nat.one_mul] at drawn copies
        omega

/-- A script spends no more than what is left for all blocks and what it earns. -/
theorem countP_scriptSteps_le (entry : String) :
    ∃ visited, (scriptSteps target entry).countP budget.spent + budget.left visited ≤
      budget.left [] + (scriptSteps target entry).countP budget.earned :=
  ⟨_, (budget.keptBy_walk linkLimit entry none .start).2⟩

end Budget

/-! ### Loops that were not met -/

section

variable {target : Target} {id : String} {block : Block}

theorem mem_loops_iff :
    id ∈ loops target ↔ ∃ block, target.block? id = some block ∧ isLoop block := by
  simp only [loops, List.mem_map, List.mem_filter, Prod.exists, exists_and_right, exists_eq_right,
    Target.block?, OrderedMap.get?_eq_some_iff]

theorem nodup_loops (target : Target) : (loops target).Nodup :=
  List.Pairwise.sublist (List.Sublist.map Prod.fst List.filter_sublist) target.blocks.distinct

theorem isExpansion_block (present : target.block? id = some block) (links : Nat) :
    isExpansion target (.block id links) = true ↔ links ≠ 0 ∧ isLoop block = true := by
  simp [isExpansion, present]

/-- How many loops were not visited. -/
def unmet (target : Target) (visited : List String) : Nat :=
  (loops target).countP fun id => id ∉ visited

theorem unmet_le {before after : List String} (grows : before ⊆ after) :
    unmet target after ≤ unmet target before := by
  apply List.countP_mono_left
  intro id _ fresh
  simp only [decide_eq_true_eq] at fresh ⊢
  exact fun inside => fresh (grows inside)

theorem unmet_cons_le (target : Target) (id : String) (visited : List String) :
    unmet target (id :: visited) ≤ unmet target visited :=
  unmet_le (List.subset_cons_self id visited)

/-- Visiting a loop for the first time leaves one loop less. -/
theorem unmet_eq_succ {visited : List String} (inside : id ∈ loops target) (fresh : id ∉ visited) :
    unmet target visited = unmet target (id :: visited) + 1 := by
  have apart : id ∉ (loops target).erase id := (nodup_loops target).not_mem_erase
  have whole := List.perm_cons_erase inside
  -- the other loops are left as they were
  have others : ((loops target).erase id).countP (fun other => other ∉ id :: visited) =
      ((loops target).erase id).countP fun other => other ∉ visited := by
    apply List.countP_congr
    intro other member
    have different : other ≠ id := fun same => apart (same ▸ member)
    simp [different]
  rw [unmet, unmet, whole.countP_eq, whole.countP_eq, List.countP_cons, List.countP_cons, others]
  simp [fresh]

end

/-! ### The two bounds -/

section

variable (target : Target)

/-- A block is worth one appearance until it is visited, and every loop earns one more. -/
def appearances (id : String) : Budget target where
  spent step := step.declared? = some (.ofBlock id)
  earned := isExpansion target
  left visited := if id ∈ visited then 0 else 1
  copy visited := if id ∈ visited then 0 else 1
  left_le _ := Nat.le_add_left _ _
  copy_le {before after} grows := by
    by_cases met : id ∈ before
    · simp [met, grows met]
    · rw [if_neg met]
      split <;> decide
  draw {other block visited} links fresh present := by
    simp only [decide_eq_true_eq, isExpansion_block present, Step.declared?, Option.some.injEq,
      Node.ofBlock, Node.mk.injEq, and_true, List.mem_cons]
    by_cases same : other = id
    · subst same
      simp [fresh]
    · by_cases met : id ∈ visited <;> by_cases expands : links ≠ 0 ∧ isLoop block = true <;>
        simp [same, Ne.symm same, met, expands]
  beside {other step} beside := decide_eq_false (beside.declared?_ne _ (.inl rfl))
  cut other := by simp [Step.declared?, Node.ofBlock]

/-- The expansions that are left are doubled by every loop that was not met. -/
def doubling : Budget target where
  spent := isExpansion target
  earned _ := false
  left visited := 2 ^ unmet target visited
  copy visited := 2 ^ unmet target visited - 1
  left_le {before after} _ := by
    have one := Nat.one_le_two_pow (n := unmet target after)
    omega
  copy_le grows := Nat.sub_le_sub_right (Nat.pow_le_pow_right (by decide) (unmet_le grows)) 1
  draw {id block visited} links fresh present := by
    have one := Nat.one_le_two_pow (n := unmet target (id :: visited))
    simp only [isExpansion_block present]
    by_cases expands : links ≠ 0 ∧ isLoop block = true
    · -- the body and the flow after it share what is left
      have inside : id ∈ loops target := mem_loops_iff.mpr ⟨block, present, expands.2⟩
      rw [if_pos expands, if_pos expands, unmet_eq_succ inside fresh, Nat.pow_succ]
      simp only [Bool.false_eq_true, if_false]
      omega
    · have fewer := Nat.pow_le_pow_right (n := 2) (by decide) (unmet_cons_le target id visited)
      rw [if_neg expands, if_neg expands]
      simp only [Bool.false_eq_true, if_false]
      omega
  beside {id step} beside := by
    cases step with
    | block other links => exact absurd rfl (beside.2 _ rfl).1
    | _ => rfl
  cut _ := rfl

/-- A script declares a block at most once more than it expands loops. -/
theorem length_declaring_le_expansions (entry id : String) :
    (declaring (.ofBlock id) (scriptSteps target entry)).length ≤ 1 + expansions target entry := by
  obtain ⟨visited, bound⟩ := (appearances target id).countP_scriptSteps_le entry
  rw [declaring, ← List.countP_eq_length_filter]
  exact Nat.le_trans (Nat.le_add_right _ _) bound

/-- A script expands loops less often than there are sets of loops. -/
theorem expansions_lt_two_pow (entry : String) :
    expansions target entry < 2 ^ (loops target).length := by
  obtain ⟨visited, bound⟩ := (doubling target).countP_scriptSteps_le entry
  have one := Nat.one_le_two_pow (n := unmet target visited)
  have all : unmet target [] = (loops target).length := by
    simp [unmet]
  simp only [doubling, all, List.countP_false, Function.const_apply] at bound
  rw [expansions]
  omega

end

/-! ### Loops that double what follows them -/

/-- The ids of the blocks of a nest are numbers. -/
def nestId (index : Nat) : String := toString index

theorem nestId_injective : Function.Injective nestId := fun _ _ same => Nat.repr_injective same

/-- A block of a nest: a loop that leads to the next block by its branch and by its next, or the
last block, which leads nowhere. -/
def nestBlock (count index : Nat) : Block :=
  if index < count then
    { opcode := "control_repeat", next := some (nestId (index + 1)), topLevel := index == 0,
      inputs := .ofList [(substack, .block (nestId (index + 1)))] }
  else { opcode := "looks_show", topLevel := index == 0 }

/-- Loops that lead to the next block both by their branch and by their next, and a last block. -/
def nest (count : Nat) : Target where
  name := "Cat"
  blocks :=
    { entries := (List.range (count + 1)).map fun index => (nestId index, nestBlock count index)
      distinct := by
        rw [List.map_map]
        exact List.nodup_range.map nestId_injective }

section

variable {count index : Nat}

theorem block?_nest (within : index ≤ count) :
    (nest count).block? (nestId index) = some (nestBlock count index) := by
  apply ((nest count).blocks.get?_eq_some_iff _ _).mpr
  exact List.mem_map.mpr ⟨index, List.mem_range.mpr (Nat.lt_succ_of_le within), rfl⟩

theorem nestBlock_of_lt (inside : index < count) :
    nestBlock count index =
      { opcode := "control_repeat", next := some (nestId (index + 1)), topLevel := index == 0,
        inputs := .ofList [(substack, .block (nestId (index + 1)))] } :=
  if_pos inside

theorem nestBlock_self (count : Nat) :
    nestBlock count count = { opcode := "looks_show", topLevel := count == 0 } :=
  if_neg (Nat.lt_irrefl count)

theorem destination?_nest (inside : index < count) {link : Link} (other : link ≠ .substack2) :
    destination? (nest count) (nestBlock count index) link = some (nestId (index + 1)) := by
  have present : (nest count).hasBlock (nestId (index + 1)) = true :=
    hasBlock_of_block? (block?_nest inside)
  rw [nestBlock_of_lt inside]
  cases link with
  | next => simp [destination?, named?, present]
  | substack =>
    simp [destination?, named?, Block.branch?, OrderedMap.ofList, OrderedMap.get?, Entries.putAll,
      Entries.put, present]
  | substack2 => contradiction

theorem plan_nest (inside : index < count) (continuation : Option Node) :
    plan (nest count) (nestId index) (nestBlock count index) continuation =
      [.opening ⟨nestId index, .loopEnd⟩,
        .emit (.branch (.ofBlock (nestId index)) (.ofBlock (nestId (index + 1))) .holds),
        .walk .forked (nestId (index + 1)) (some ⟨nestId index, .loopEnd⟩),
        .emit (.branch (.ofBlock (nestId index)) ⟨nestId index, .loopEnd⟩ .fails),
        .emit (.edge ⟨nestId index, .loopEnd⟩ (.ofBlock (nestId (index + 1)))),
        .walk .shared (nestId (index + 1)) continuation] := by
  have control : (nestBlock count index).control? = some .repeatTimes := by
    rw [nestBlock_of_lt inside]
    rfl
  simp [plan, control, constructParts, branchParts, rejoinParts, linkParts, joinRole, loopAnswers,
    destination?_nest inside]

theorem plan_nest_self (count : Nat) (continuation : Option Node) :
    plan (nest count) (nestId count) (nestBlock count count) continuation =
      continuation.toList.map fun join => .emit (.edge (.ofBlock (nestId count)) join) := by
  have plain : (nestBlock count count).control? = none := by
    rw [nestBlock_self]
    rfl
  have silent : (nestBlock count count).isEvent = false := by
    rw [nestBlock_self]
    exact show Text.beginsWith "event_" "looks_show" = false by decide
  have unlinked : (nestBlock count count).next = none := by
    rw [nestBlock_self]
  simp [plan, plain, plainParts, linkParts, danglingParts, noticeDangling, dangling?,
    destination?, named?, unlinked, silent]

theorem declaring_append (node : Node) (first second : List Step) :
    declaring node (first ++ second) = declaring node first ++ declaring node second :=
  List.filter_append ..

/-- The last block of a nest is declared twice as often by every further loop before it. -/
theorem length_declaring_walk_nest {gap links : Nat} (total : index + gap = count)
    (enough : gap ≤ links) {continuation : Option Node} {progress : Progress}
    (fresh : ∀ other, index ≤ other → nestId other ∉ progress.visited) :
    (declaring (.ofBlock (nestId count))
      (walk (nest count) links (nestId index) continuation progress).steps).length = 2 ^ gap := by
  induction gap generalizing index links continuation progress with
  | zero =>
    obtain rfl : index = count := total
    have present := block?_nest (Nat.le_refl index)
    have first := fresh index (Nat.le_refl index)
    cases links with
    | zero => simp [walk_zero _ _ first present, declaring, Step.declared?, Node.ofBlock]
    | succ links =>
      rw [walk_eq_runParts _ _ first present, plan_nest_self]
      cases continuation <;> simp [runParts, declaring, Step.declared?, Node.ofBlock]
  | succ gap ih =>
    obtain ⟨more, rfl⟩ : ∃ more, links = more + 1 := ⟨links - 1, by omega⟩
    have inside : index < count := by omega
    have present := block?_nest (Nat.le_of_lt inside)
    -- from the next block on nothing was visited, neither in the body nor after it
    have later : ∀ other, index + 1 ≤ other →
        nestId other ∉ nestId index :: progress.visited := by
      intro other beyond
      rw [List.mem_cons, not_or]
      exact ⟨fun same => absurd (nestId_injective same) (by omega), fresh other (by omega)⟩
    have apart : nestId index ≠ nestId count :=
      fun same => absurd (nestId_injective same) (by omega)
    have walks : ∀ {continuation : Option Node} {progress' : Progress},
        progress'.visited = nestId index :: progress.visited →
          (declaring (.ofBlock (nestId count))
            (walk (nest count) more (nestId (index + 1)) continuation progress').steps).length =
              2 ^ gap :=
      fun visited => ih (by omega) (by omega) (visited ▸ later)
    rw [walk_eq_runParts _ _ (fresh index (Nat.le_refl index)) present, plan_nest inside]
    simp only [runParts, Part.run, Outcome.steps_after, Outcome.steps_andThen, declaring_append,
      List.length_append, Outcome.forgetVisits, Outcome.steps_emit]
    rw [walks rfl, walks rfl, Nat.pow_succ]
    simp [declaring, Step.declared?, Node.ofBlock, apart]
    omega

/-- A script declares the last block of a nest as often as there are sets of loops. -/
theorem length_declaring_nest (within : count ≤ linkLimit) :
    (declaring (.ofBlock (nestId count)) (scriptSteps (nest count) (nestId 0))).length =
      2 ^ count :=
  length_declaring_walk_nest (Nat.zero_add count) within fun _ _ => List.not_mem_nil

theorem length_loops_nest (count : Nat) : (loops (nest count)).length = count := by
  have before : ∀ index ∈ List.range count, isLoop (nestBlock count index) = true := by
    intro index inside
    rw [nestBlock_of_lt (List.mem_range.mp inside)]
    rfl
  have last : isLoop (nestBlock count count) = false := by
    rw [nestBlock_self]
    rfl
  have kept : (List.range count).filter (fun index => isLoop (nestBlock count index)) =
      List.range count :=
    List.filter_eq_self.mpr before
  simp only [loops, nest, List.filter_map, List.length_map, Function.comp_def, List.range_succ,
    List.filter_append, List.length_append, kept, List.length_range]
  simp [last]

theorem entryPoints_nest (count : Nat) : (nest count).entryPoints = [nestId 0] := by
  have later : ∀ index, (nestBlock count (index + 1)).topLevel = false := by
    intro index
    unfold nestBlock
    split <;> rfl
  have first : (nestBlock count 0).topLevel = true ∧ (nestBlock count 0).parent = none := by
    unfold nestBlock
    split <;> exact ⟨rfl, rfl⟩
  simp [Target.entryPoints, nest, List.range_succ_eq_map, List.filter_map, Function.comp_def, later,
    first]

end

end ScriptChart.Flow
