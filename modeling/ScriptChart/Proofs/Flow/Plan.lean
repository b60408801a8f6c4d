import ScriptChart.Flow.Walk
import ScriptChart.Proofs.Flow.Links

/-!
# The plan of a block

What is done for a block on a walk, in order: steps that are known beforehand, the opening of a
construct, further walks from the blocks that links lead to, and the way on from the node in which
a construct ends. All kinds of blocks differ in their plans only, so what holds of every part of a
plan holds of every walk.

## Main definitions

* `Part`, `Part.run`: one part of a plan, and what it does.
* `plan`, `runParts`: the parts for a block, and doing them one after the other.
* `children`: the blocks from which a plan walks on.
* `Planned`: the parts that a plan may have.

## Main results

* `expand_eq_runParts`: expanding a block is doing its plan.
* `planned_of_mem_plan`: a plan has no other parts.
* `filterMap_child?_plan`: a plan walks on from exactly the blocks that followed links lead to.
* `walk_eq_runParts`: a walk draws a block and does its plan.
-/

namespace ScriptChart.Flow

open ScriptChart.Project

/-- One part of what is done for a block. -/
inductive Part where
  /-- A step that depends on the block only. -/
  | emit (step : Step)
  /-- The node in which a construct ends, drawn and recorded. -/
  | opening (join : Node)
  /-- The way on from the node in which a construct ends. -/
  | rejoin (join : Node) (continuation : Option Node)
  /-- A walk from the block that a link leads to. -/
  | walk (visits : Visits) (first : String) (continuation : Option Node)

namespace Part

/-- What a part does, given how walks go on. -/
def run (target : Target) (walker : Walker) : Part → Progress → Outcome
  | .emit step, progress => .emit [step] progress
  | .opening join, progress => .emit [.join join] (progress.record join)
  | .rejoin join continuation, progress =>
    .emit [.rejoin join (enclosing? target progress.ends join.owner) continuation] progress
  | .walk visits first continuation, progress =>
    let outcome := walker first continuation progress
    match visits with
    | .shared => outcome
    | .forked => outcome.forgetVisits progress

/-- The block from which a part walks on, with its continuation. -/
def child? : Part → Option (String × Option Node)
  | .walk _ first continuation => some (first, continuation)
  | _ => none

/-- What a part draws when the way on from a construct is the continuation. -/
def settled : Part → List Step
  | .emit step => [step]
  | .opening join => [.join join]
  | .rejoin join continuation => [.rejoin join continuation continuation]
  | .walk _ _ _ => []

end Part

/-- Does the parts of a plan one after the other. -/
def runParts (target : Target) (walker : Walker) : List Part → Progress → Outcome
  | [], progress => .emit [] progress
  | part :: rest, progress =>
    (part.run target walker progress).andThen (runParts target walker rest)

section Plan

variable (target : Target) (id : String) (block : Block)

/-- The parts for a dangling link. -/
def danglingParts (link : Link) : List Part :=
  (noticeDangling target id block link).map .emit

/-- The parts for a link: an edge to the block that it leads to and a walk from there, or else what
stands for an absent link. -/
def linkParts (link : Link) (visits : Visits) (enter : Node → Step) (continuation : Option Node)
    (absent : List Part) : List Part :=
  match destination? target block link with
  | some first => [.emit (enter (.ofBlock first)), .walk visits first continuation]
  | none => danglingParts target id block link ++ absent

/-- The parts for a branch. -/
def branchParts (visits : Visits) (link : Link) (answer : Answer) (join : Node) : List Part :=
  linkParts target id block link visits (fun place => .branch (.ofBlock id) place answer)
    (some join) [.emit (.branch (.ofBlock id) join answer)]

/-- The parts for the way on from the end of a construct. -/
def rejoinParts (join : Node) (continuation : Option Node) : List Part :=
  linkParts target id block .next .shared (.edge join) continuation [.rejoin join continuation]

/-- The parts for a block that is no construct. -/
def plainParts (continuation : Option Node) : List Part :=
  linkParts target id block .next .shared (.edge (.ofBlock id)) continuation
    (if block.isEvent then [.emit (.leaf (.ofBlock id))]
    else continuation.toList.map fun join => .emit (.edge (.ofBlock id) join))

/-- The parts for the body of an endless loop. -/
def bodyParts (join : Node) : List Part :=
  linkParts target id block .substack .forked (.edge (.ofBlock id)) (some join)
    [.emit (.edge (.ofBlock id) join)]

/-- The parts for the branches of a construct, and for the edges that stand for absent ones. -/
def constructParts (kind : ControlKind) (join : Node) (continuation : Option Node) : List Part :=
  match kind with
  | .forever => bodyParts target id block join ++ [.emit (.edge join (.ofBlock id))]
  | .ifThen =>
    branchParts target id block .shared .substack .yes join ++
      [.emit (.branch (.ofBlock id) join .no)] ++ rejoinParts target id block join continuation
  | .ifElse =>
    branchParts target id block .shared .substack .yes join ++
      branchParts target id block .shared .substack2 .no join ++
        rejoinParts target id block join continuation
  | .repeatTimes | .repeatUntil =>
    branchParts target id block .forked .substack (loopAnswers kind).1 join ++
      [.emit (.branch (.ofBlock id) join (loopAnswers kind).2)] ++
        rejoinParts target id block join continuation

/-- The parts for a block. -/
def plan (continuation : Option Node) : List Part :=
  match block.control? with
  | none => plainParts target id block continuation
  | some kind =>
    .opening ⟨id, joinRole kind⟩ ::
      constructParts target id block kind ⟨id, joinRole kind⟩ continuation

/-- The blocks that followed links lead to, with the nodes in which the innermost constructs around
them end. -/
def children (join : Option Node) : List (String × Option Node) :=
  (followedLinks block).filterMap fun link =>
    (destination? target block link).map fun next => (next, joinAlong id block link join)

end Plan

/-! ### Doing a plan -/

namespace Outcome

@[simp]
theorem emit_andThen (steps : List Step) (progress : Progress) (next : Progress → Outcome) :
    (emit steps progress).andThen next = (next progress).after steps := rfl

@[simp]
theorem after_andThen (steps : List Step) (outcome : Outcome) (next : Progress → Outcome) :
    (outcome.after steps).andThen next = (outcome.andThen next).after steps := by
  simp [after, andThen]

theorem andThen_assoc (outcome : Outcome) (first second : Progress → Outcome) :
    (outcome.andThen first).andThen second =
      outcome.andThen fun progress => (first progress).andThen second := by
  simp [andThen, after]

@[simp]
theorem andThen_emit_nil (outcome : Outcome) : outcome.andThen (emit []) = outcome := by
  simp [andThen, after, emit]

@[simp]
theorem steps_emit (steps : List Step) (progress : Progress) :
    (emit steps progress).steps = steps := rfl

@[simp]
theorem progress_emit (steps : List Step) (progress : Progress) :
    (emit steps progress).progress = progress := rfl

@[simp]
theorem steps_after (steps : List Step) (outcome : Outcome) :
    (outcome.after steps).steps = steps ++ outcome.steps := rfl

@[simp]
theorem progress_after (steps : List Step) (outcome : Outcome) :
    (outcome.after steps).progress = outcome.progress := rfl

@[simp]
theorem steps_andThen (outcome : Outcome) (next : Progress → Outcome) :
    (outcome.andThen next).steps = outcome.steps ++ (next outcome.progress).steps := rfl

@[simp]
theorem progress_andThen (outcome : Outcome) (next : Progress → Outcome) :
    (outcome.andThen next).progress = (next outcome.progress).progress := rfl

@[simp]
theorem emit_after (first second : List Step) (progress : Progress) :
    (emit second progress).after first = emit (first ++ second) progress := rfl

end Outcome

section Running

variable (target : Target) (walker : Walker) (id : String) (block : Block)

theorem runParts_append (first second : List Part) (progress : Progress) :
    runParts target walker (first ++ second) progress =
      (runParts target walker first progress).andThen (runParts target walker second) := by
  induction first generalizing progress with
  | nil => rfl
  | cons part rest ih =>
    -- as an equation of functions, since the parts run from a progress that is not known yet
    have later : runParts target walker (rest ++ second) = fun progress =>
        (runParts target walker rest progress).andThen (runParts target walker second) :=
      funext ih
    rw [List.cons_append, runParts, later, runParts, Outcome.andThen_assoc]

@[simp]
theorem run_emit (step : Step) :
    Part.run target walker (.emit step) = Outcome.emit [step] := rfl

@[simp]
theorem run_walk (visits : Visits) (first : String) (join : Node) :
    Part.run target walker (.walk visits first (some join)) =
      walkBranch walker visits first join := rfl

@[simp]
theorem run_walk_shared (first : String) (continuation : Option Node) :
    Part.run target walker (.walk .shared first continuation) = walker first continuation := rfl

@[simp]
theorem runParts_single (part : Part) :
    runParts target walker [part] = part.run target walker := by
  funext progress
  simp [runParts]

theorem runParts_emits (steps : List Step) (progress : Progress) :
    runParts target walker (steps.map .emit) progress = .emit steps progress := by
  induction steps with
  | nil => rfl
  | cons step rest ih => simp [runParts, ih]

theorem runParts_danglingParts (link : Link) (progress : Progress) :
    runParts target walker (danglingParts target id block link) progress =
      .emit (noticeDangling target id block link) progress :=
  runParts_emits target walker _ progress

/-- Doing the parts for a link: the walk from the block that it leads to, or else what stands for an
absent link. -/
theorem runParts_linkParts (link : Link) (visits : Visits) (enter : Node → Step)
    (continuation : Option Node) (absent : List Part) (progress : Progress) :
    runParts target walker (linkParts target id block link visits enter continuation absent)
        progress =
      match destination? target block link with
      | some first =>
        (Part.run target walker (.walk visits first continuation) progress).after
          [enter (.ofBlock first)]
      | none =>
        (runParts target walker absent progress).after (noticeDangling target id block link) := by
  unfold linkParts
  cases destination? target block link with
  | some first => simp [runParts]
  | none => rw [runParts_append, runParts_danglingParts, Outcome.emit_andThen]

theorem runParts_branchParts (visits : Visits) (link : Link) (answer : Answer) (join : Node) :
    runParts target walker (branchParts target id block visits link answer join) =
      expandBranch target walker id block visits link answer join := by
  funext progress
  rw [branchParts, runParts_linkParts, expandBranch]
  cases destination? target block link <;> simp

theorem runParts_rejoinParts {join : Node} (own : join.owner = id) (continuation : Option Node) :
    runParts target walker (rejoinParts target id block join continuation) =
      expandRejoin target walker id block join continuation := by
  funext progress
  rw [rejoinParts, runParts_linkParts, expandRejoin]
  cases destination? target block .next <;> simp [Part.run, own]

theorem runParts_plainParts (continuation : Option Node) :
    runParts target walker (plainParts target id block continuation) =
      expandPlain target walker id block continuation := by
  funext progress
  rw [plainParts, runParts_linkParts, expandPlain]
  cases destination? target block .next with
  | some next => simp
  | none =>
    by_cases event : block.isEvent = true
    · simp [event]
    · cases continuation <;> simp [event, runParts]

theorem runParts_bodyParts (join : Node) :
    runParts target walker (bodyParts target id block join) =
      expandBody target walker id block join := by
  funext progress
  rw [bodyParts, runParts_linkParts, expandBody]
  cases destination? target block .substack <;> simp

/-- Expanding a block is doing its plan. -/
theorem expand_eq_runParts (continuation : Option Node) (progress : Progress) :
    expand target walker id block continuation progress =
      runParts target walker (plan target id block continuation) progress := by
  unfold expand plan
  cases block.control? with
  | none => rw [runParts_plainParts]
  | some kind =>
    -- the opening draws the end of the construct and records it before anything else
    simp only [runParts, Part.run, Outcome.emit_andThen]
    cases kind with
    | forever =>
      simp only [constructParts, expandForever, runParts_append, runParts_bodyParts,
        runParts_single, run_emit, Outcome.after_andThen]
    | ifThen =>
      simp only [constructParts, expandConditional, runParts_append,
        runParts_branchParts, runParts_single, run_emit, runParts_rejoinParts,
        Outcome.after_andThen]
      rfl
    | ifElse =>
      simp only [constructParts, expandConditional, runParts_append,
        runParts_branchParts, runParts_rejoinParts, Outcome.after_andThen]
      rfl
    | repeatTimes | repeatUntil =>
      simp only [constructParts, expandLoop, runParts_append, runParts_branchParts,
        runParts_single, run_emit, runParts_rejoinParts, Outcome.after_andThen]

/-- A walk passes over a block that was visited or is not there, and draws any other. -/
theorem passed_or_fresh (progress : Progress) :
    (id ∈ progress.visited ∨ target.block? id = none) ∨
      ∃ block, id ∉ progress.visited ∧ target.block? id = some block := by
  rw [or_iff_not_imp_left]
  intro passed
  obtain ⟨fresh, present⟩ := not_or.mp passed
  obtain ⟨block, present⟩ := Option.ne_none_iff_exists'.mp present
  exact ⟨block, fresh, present⟩

theorem walk_of_passed {links : Nat} {continuation : Option Node} {progress : Progress}
    (passed : id ∈ progress.visited ∨ target.block? id = none) :
    walk target links id continuation progress = .emit [] progress := by
  unfold walk
  rcases passed with visited | absent
  · simp [visited]
  · simp [absent]

theorem walk_zero {block : Block} {continuation : Option Node} {progress : Progress}
    (fresh : id ∉ progress.visited) (present : target.block? id = some block) :
    walk target 0 id continuation progress = .emit [.block id 0, .cut id] (progress.visit id) := by
  simp [walk, fresh, present]

/-- A walk draws a block and does its plan. -/
theorem walk_eq_runParts {block : Block} {links : Nat} {continuation : Option Node}
    {progress : Progress} (fresh : id ∉ progress.visited)
    (present : target.block? id = some block) :
    walk target (links + 1) id continuation progress =
      (runParts target (walk target links) (plan target id block continuation)
        (progress.visit id)).after [.block id (links + 1)] := by
  simp [walk, fresh, present, expand_eq_runParts]

end Running

/-! ### Where a plan walks on -/

section Children

variable (target : Target) (id : String) (block : Block)

theorem filterMap_child?_danglingParts (link : Link) :
    (danglingParts target id block link).filterMap Part.child? = [] := by
  simp [danglingParts, List.filterMap_map, Function.comp_def, Part.child?]

/-- The parts for a link walk on from where it leads. -/
theorem filterMap_child?_linkParts (link : Link) (visits : Visits) (enter : Node → Step)
    (continuation : Option Node) {absent : List Part}
    (childless : absent.filterMap Part.child? = []) :
    (linkParts target id block link visits enter continuation absent).filterMap Part.child? =
      (destination? target block link).toList.map fun next => (next, continuation) := by
  unfold linkParts
  cases destination? target block link with
  | some first => simp [List.filterMap_cons, Part.child?]
  | none => simp [filterMap_child?_danglingParts, childless]

theorem filterMap_child?_branchParts (visits : Visits) (link : Link) (answer : Answer)
    (join : Node) :
    (branchParts target id block visits link answer join).filterMap Part.child? =
      (destination? target block link).toList.map fun next => (next, some join) :=
  filterMap_child?_linkParts target id block link visits _ _ rfl

theorem filterMap_child?_rejoinParts (join : Node) (continuation : Option Node) :
    (rejoinParts target id block join continuation).filterMap Part.child? =
      (destination? target block .next).toList.map fun next => (next, continuation) :=
  filterMap_child?_linkParts target id block .next .shared _ _ rfl

theorem filterMap_child?_bodyParts (join : Node) :
    (bodyParts target id block join).filterMap Part.child? =
      (destination? target block .substack).toList.map fun next => (next, some join) :=
  filterMap_child?_linkParts target id block .substack .forked _ _ rfl

theorem filterMap_child?_plainParts (continuation : Option Node) :
    (plainParts target id block continuation).filterMap Part.child? =
      (destination? target block .next).toList.map fun next => (next, continuation) := by
  apply filterMap_child?_linkParts
  split <;> cases continuation <;> rfl

theorem children_eq_flatMap (join : Option Node) :
    children target id block join =
      (followedLinks block).flatMap fun link =>
        (destination? target block link).toList.map fun next =>
          (next, joinAlong id block link join) := by
  unfold children
  induction followedLinks block with
  | nil => rfl
  | cons link rest ih =>
    cases leads : destination? target block link <;> simp [leads, ih]

/-- A plan walks on from exactly the blocks that followed links lead to, each within the construct
around it. -/
theorem filterMap_child?_plan (continuation : Option Node) :
    (plan target id block continuation).filterMap Part.child? =
      children target id block continuation := by
  rw [children_eq_flatMap]
  unfold plan followedLinks
  cases control : block.control? with
  | none => simp [filterMap_child?_plainParts, joinAlong]
  | some kind =>
    cases kind <;>
      simp [constructParts, filterMap_child?_branchParts, filterMap_child?_rejoinParts,
        filterMap_child?_bodyParts, Part.child?, joinAlong, control, List.filterMap_cons]

variable {target id block} {continuation : Option Node}

theorem mem_children_iff {child : String × Option Node} :
    child ∈ children target id block continuation ↔
      ∃ link ∈ followedLinks block, destination? target block link = some child.1 ∧
        child.2 = joinAlong id block link continuation := by
  obtain ⟨next, inner⟩ := child
  simp only [children, List.mem_filterMap, Option.map_eq_some_iff, Prod.mk.injEq]
  constructor
  · rintro ⟨link, followed, other, leads, rfl, rfl⟩
    exact ⟨link, followed, leads, rfl⟩
  · rintro ⟨link, followed, leads, rfl⟩
    exact ⟨link, followed, next, leads, rfl, rfl⟩

/-- Every walk of a plan begins where a followed link leads. -/
theorem exists_link_of_walk_mem_plan {visits : Visits} {first : String} {other : Option Node}
    (inside : .walk visits first other ∈ plan target id block continuation) :
    ∃ link ∈ followedLinks block, destination? target block link = some first ∧
      other = joinAlong id block link continuation := by
  have child : (first, other) ∈ (plan target id block continuation).filterMap Part.child? :=
    List.mem_filterMap.mpr ⟨_, inside, rfl⟩
  rw [filterMap_child?_plan] at child
  exact mem_children_iff.mp child

/-- A plan walks on along every followed link that leads to a block. -/
theorem exists_walk_mem_plan {link : Link} {next : String} (followed : link ∈ followedLinks block)
    (leads : destination? target block link = some next) (continuation : Option Node) :
    ∃ visits, .walk visits next (joinAlong id block link continuation) ∈
      plan target id block continuation := by
  have child : (next, joinAlong id block link continuation) ∈
      (plan target id block continuation).filterMap Part.child? := by
    rw [filterMap_child?_plan]
    exact mem_children_iff.mpr ⟨link, followed, leads, rfl⟩
  obtain ⟨part, inside, walks⟩ := List.mem_filterMap.mp child
  cases part with
  | walk visits first other =>
    obtain ⟨rfl, rfl⟩ := Prod.mk.inj (Option.some.inj walks)
    exact ⟨visits, inside⟩
  | emit step | opening join | rejoin join other => simp [Part.child?] at walks

end Children

/-! ### The parts of a plan -/

/-- Whether what a branch of a construct visits stays visited for the flow after it. -/
def branchVisits : ControlKind → Visits
  | .ifThen | .ifElse => .shared
  | .forever | .repeatTimes | .repeatUntil => .forked

/-- The parts that a plan may have after a construct was opened. -/
inductive Planned (target : Target) (id : String) (block : Block) (continuation : Option Node) :
    Part → Prop
  /-- A dangling link is noticed. -/
  | missing {link : Link} {name : String} (dangles : dangling? target block link = some name) :
      Planned target id block continuation (.emit (.missing id link name))
  /-- An edge leaves the block. -/
  | edge (place : Node) : Planned target id block continuation (.emit (.edge (.ofBlock id) place))
  /-- An edge leaves the block for an answer. -/
  | branch (place : Node) (answer : Answer) :
      Planned target id block continuation (.emit (.branch (.ofBlock id) place answer))
  /-- Control ends after an event. -/
  | leaf (event : block.isEvent = true) :
      Planned target id block continuation (.emit (.leaf (.ofBlock id)))
  /-- Control goes back to an endless loop. -/
  | back (control : block.control? = some .forever) :
      Planned target id block continuation (.emit (.edge ⟨id, .again⟩ (.ofBlock id)))
  /-- From the end of a construct control goes on to the block below it. -/
  | onward {kind : ControlKind} (control : block.control? = some kind) {next : String}
      (leads : destination? target block .next = some next) :
      Planned target id block continuation (.emit (.edge ⟨id, joinRole kind⟩ (.ofBlock next)))
  /-- From the end of a construct control goes on in another way. -/
  | rejoin {kind : ControlKind} (control : block.control? = some kind) (ends : kind ≠ .forever)
      (last : destination? target block .next = none) :
      Planned target id block continuation (.rejoin ⟨id, joinRole kind⟩ continuation)
  /-- The walk goes on to the block below. -/
  | chain {next : String} (leads : destination? target block .next = some next) :
      Planned target id block continuation (.walk .shared next continuation)
  /-- The walk enters a branch. -/
  | enter {kind : ControlKind} (control : block.control? = some kind) {link : Link} {first : String}
      (leads : destination? target block link = some first) :
      Planned target id block continuation
        (.walk (branchVisits kind) first (some ⟨id, joinRole kind⟩))

section Planned

variable {target : Target} {id : String} {block : Block} {continuation : Option Node} {part : Part}

theorem mem_linkParts {link : Link} {visits : Visits} {enter : Node → Step} {other : Option Node}
    {absent : List Part}
    (inside : part ∈ linkParts target id block link visits enter other absent) :
    (∃ first, destination? target block link = some first ∧
        (part = .emit (enter (.ofBlock first)) ∨ part = .walk visits first other)) ∨
      (∃ name, dangling? target block link = some name ∧ part = .emit (.missing id link name)) ∨
        (destination? target block link = none ∧ part ∈ absent) := by
  unfold linkParts at inside
  cases leads : destination? target block link with
  | some first =>
    simp only [leads, List.mem_cons, List.not_mem_nil, or_false] at inside
    exact .inl ⟨first, rfl, inside⟩
  | none =>
    simp only [leads, danglingParts, noticeDangling, List.mem_append, List.mem_map] at inside
    obtain ⟨_, ⟨name, dangles, rfl⟩, rfl⟩ | inside := inside
    · exact .inr (.inl ⟨name, Option.mem_toList.mp dangles, rfl⟩)
    · exact .inr (.inr ⟨rfl, inside⟩)

/-- The parts for a branch or for the body of an endless loop. -/
theorem planned_of_mem_linkParts {kind : ControlKind} (control : block.control? = some kind)
    {link : Link} {enter : Node → Step}
    (enters : ∀ place, Planned target id block continuation (.emit (enter place)))
    (inside : part ∈ linkParts target id block link (branchVisits kind) enter
      (some ⟨id, joinRole kind⟩) [.emit (enter ⟨id, joinRole kind⟩)]) :
    Planned target id block continuation part := by
  obtain ⟨first, leads, rfl | rfl⟩ | ⟨name, dangles, rfl⟩ | ⟨-, absent⟩ := mem_linkParts inside
  · exact enters _
  · exact .enter control leads
  · exact .missing dangles
  · rw [List.mem_singleton.mp absent]
    exact enters _

theorem planned_of_mem_rejoinParts {kind : ControlKind} (control : block.control? = some kind)
    (ends : kind ≠ .forever)
    (inside : part ∈ rejoinParts target id block ⟨id, joinRole kind⟩ continuation) :
    Planned target id block continuation part := by
  obtain ⟨next, leads, rfl | rfl⟩ | ⟨name, dangles, rfl⟩ | ⟨last, absent⟩ := mem_linkParts inside
  · exact .onward control leads
  · exact .chain leads
  · exact .missing dangles
  · rw [List.mem_singleton.mp absent]
    exact .rejoin control ends last

theorem planned_of_mem_plainParts (inside : part ∈ plainParts target id block continuation) :
    Planned target id block continuation part := by
  obtain ⟨next, leads, rfl | rfl⟩ | ⟨name, dangles, rfl⟩ | ⟨last, absent⟩ := mem_linkParts inside
  · exact .edge _
  · exact .chain leads
  · exact .missing dangles
  · split at absent
    · next event =>
      rw [List.mem_singleton.mp absent]
      exact .leaf event
    · obtain ⟨join, -, rfl⟩ := List.mem_map.mp absent
      exact .edge join

theorem planned_of_mem_constructParts {kind : ControlKind} (control : block.control? = some kind)
    (inside : part ∈ constructParts target id block kind ⟨id, joinRole kind⟩ continuation) :
    Planned target id block continuation part := by
  cases kind with
  | forever =>
    rcases List.mem_append.mp inside with inside | inside
    · exact planned_of_mem_linkParts control .edge inside
    · rw [List.mem_singleton.mp inside]
      exact .back control
  | ifElse =>
    rcases List.mem_append.mp inside with inside | inside
    · rcases List.mem_append.mp inside with inside | inside
      · exact planned_of_mem_linkParts control (fun place => .branch place .yes) inside
      · exact planned_of_mem_linkParts control (fun place => .branch place .no) inside
    · exact planned_of_mem_rejoinParts control (by decide) inside
  | ifThen | repeatTimes | repeatUntil =>
    rcases List.mem_append.mp inside with inside | inside
    · rcases List.mem_append.mp inside with inside | inside
      · exact planned_of_mem_linkParts control (fun place => .branch place _) inside
      · rw [List.mem_singleton.mp inside]
        exact .branch _ _
    · exact planned_of_mem_rejoinParts control (by decide) inside

/-- A plan has no other parts, beside the opening of a construct. -/
theorem planned_of_mem_plan (inside : part ∈ plan target id block continuation) :
    Planned target id block continuation part ∨
      ∃ kind, block.control? = some kind ∧ part = .opening ⟨id, joinRole kind⟩ := by
  unfold plan at inside
  cases control : block.control? with
  | none =>
    simp only [control] at inside
    exact .inl (planned_of_mem_plainParts inside)
  | some kind =>
    simp only [control, List.mem_cons] at inside
    obtain opens | inside := inside
    · exact .inr ⟨kind, rfl, opens⟩
    · exact .inl (planned_of_mem_constructParts control inside)

/-- A missing block is noticed where a link of the block dangles. -/
theorem dangling?_of_missing_mem_plan {owner name : String} {link : Link}
    (inside : .emit (.missing owner link name) ∈ plan target id block continuation) :
    owner = id ∧ dangling? target block link = some name := by
  obtain planned | ⟨kind, -, opens⟩ := planned_of_mem_plan inside
  · cases planned with
    | missing dangles => exact ⟨rfl, dangles⟩
  · contradiction

/-- A construct is opened only once. -/
theorem opening_not_mem_constructParts {kind : ControlKind} (control : block.control? = some kind)
    {join : Node} :
    .opening join ∉ constructParts target id block kind ⟨id, joinRole kind⟩ continuation := by
  intro inside
  cases planned_of_mem_constructParts control inside

theorem exists_kind_of_opening_mem_plan {join : Node}
    (inside : .opening join ∈ plan target id block continuation) :
    ∃ kind, block.control? = some kind ∧ join = ⟨id, joinRole kind⟩ := by
  obtain planned | ⟨kind, control, opens⟩ := planned_of_mem_plan inside
  · cases planned
  · exact ⟨kind, control, Part.opening.inj opens⟩

/-- The way on is looked up for the node in which the block's own construct ends, when no block
stands below it. -/
theorem exists_kind_of_rejoin_mem_plan {join : Node} {other : Option Node}
    (inside : .rejoin join other ∈ plan target id block continuation) :
    (∃ kind, block.control? = some kind ∧ kind ≠ .forever ∧ join = ⟨id, joinRole kind⟩) ∧
      destination? target block .next = none ∧ other = continuation := by
  obtain planned | ⟨kind, -, opens⟩ := planned_of_mem_plan inside
  · cases planned with
    | rejoin control ends last => exact ⟨⟨_, control, ends, rfl⟩, last, rfl⟩
  · contradiction

end Planned

end ScriptChart.Flow
