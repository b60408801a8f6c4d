import ScriptChart.Proofs.Chart.Drawing
import ScriptChart.Proofs.Flow.Body

/-!
# Bodies in a diagram

In the lines of a well-linked target the body of a construct has one way in and one way out. Its
nodes are those of the blocks in the branches of the construct, with the nodes in which inner
constructs end, the leaves and the sentinels. In particular nothing leads out of an endless loop.

## Main definitions

* `HasEdge`: there is an edge between the nodes with two ids.
* `IsBodyId`: the ids of the nodes in the body of a construct.

## Main results

* `body_targetSection`: how bodies are entered and left.
-/

namespace ScriptChart.Chart

open ScriptChart.Diagram ScriptChart.Flow ScriptChart.Phrase ScriptChart.Project Relation

/-- Some line draws an edge between the nodes with two ids. -/
def HasEdge (lines : List Statement) (source destination : String) : Prop :=
  ∃ line ∈ lines, line.edge? = some (source, destination)

/-- The ids of the nodes in the body of a construct of a script. -/
def IsBodyId (pen : Pen) (construct id : String) : Prop :=
  ∃ node : Node, InBody pen.target construct node.owner ∧ id = pen.name node

/-- Scripts with one number are the same script. -/
theorem eq_of_mem_zipIdx {target : Target} {script script' : String × Nat}
    (chosen : script ∈ target.entryPoints.zipIdx) (chosen' : script' ∈ target.entryPoints.zipIdx)
    (same : script'.2 = script.2) : script' = script := by
  have entry := List.mem_zipIdx_iff_getElem?.mp chosen
  have entry' := List.mem_zipIdx_iff_getElem?.mp chosen'
  rw [same, entry] at entry'
  exact Prod.ext (Option.some.inj entry').symm same

section

variable {target : Target} (linked : WellLinked target) (distinct : CollisionFree target)
  {dictionary : Dictionary} {script : String × Nat} (chosen : script ∈ target.entryPoints.zipIdx)
  {source destination : String}
include linked distinct chosen

/-- An edge that leaves a node of a script in the diagram is an edge of the script. -/
theorem HasEdge.exists_finish {start : Node} (present : target.hasBlock start.owner = true)
    (edge : HasEdge (targetSection dictionary target).value
      ((scriptPen target dictionary script.2).name start) destination) :
    ∃ finish, Drawn target script.1 start finish ∧
      destination = (scriptPen target dictionary script.2).name finish := by
  obtain ⟨line, inside, draws⟩ := edge
  obtain rfl | ⟨script', chosen', way⟩ := edge_of_mem_targetSection inside draws
  · have same := (Prod.mk.inj (Option.some.inj draws)).1
    exact absurd same.symm (name_ne_rootId dictionary script.2 start)
  · obtain rfl | ⟨step, walked, start', finish, ends, same, rfl⟩ := way
    · have same := (Prod.mk.inj (Option.some.inj draws)).1
      exact absurd same.symm (name_ne_targetId dictionary script.2 start target.name)
    · have drawn : Drawn target script'.1 start' finish := ⟨step, walked, ends⟩
      have present' := drawn.hasBlock_start linked (isRoot_of_mem_zipIdx chosen')
      obtain ⟨number, rfl⟩ := name_inj distinct chosen chosen' present present' same
      obtain rfl := eq_of_mem_zipIdx chosen chosen' number.symm
      exact ⟨finish, drawn, rfl⟩

/-- An edge that arrives at a node of a script in the diagram is an edge of the script, unless it
is the one by which the script is entered. -/
theorem HasEdge.exists_start {finish : Node} (present : target.hasBlock finish.owner = true)
    (edge : HasEdge (targetSection dictionary target).value source
      ((scriptPen target dictionary script.2).name finish)) :
    finish = .ofBlock script.1 ∨
      ∃ start, Drawn target script.1 start finish ∧
        source = (scriptPen target dictionary script.2).name start := by
  obtain ⟨line, inside, draws⟩ := edge
  obtain rfl | ⟨script', chosen', way⟩ := edge_of_mem_targetSection inside draws
  · have same := (Prod.mk.inj (Option.some.inj draws)).2
    exact absurd same.symm (name_ne_targetId dictionary script.2 finish target.name)
  · have root' := isRoot_of_mem_zipIdx chosen'
    obtain rfl | ⟨step, walked, start, finish', ends, rfl, same⟩ := way
    · have same := (Prod.mk.inj (Option.some.inj draws)).2
      have first : target.hasBlock (Node.ofBlock script'.1).owner = true := root'.hasBlock
      obtain ⟨number, rfl⟩ := name_inj distinct chosen' chosen first present same
      obtain rfl := eq_of_mem_zipIdx chosen chosen' number
      exact .inl rfl
    · have drawn : Drawn target script'.1 start finish' := ⟨step, walked, ends⟩
      have present' := drawn.hasBlock_finish linked root'
      obtain ⟨number, rfl⟩ := name_inj distinct chosen chosen' present present' same
      obtain rfl := eq_of_mem_zipIdx chosen chosen' number.symm
      exact .inr ⟨start, drawn, rfl⟩

variable {construct : String} {count : Nat} {join : Option Node} {block : Block}

/-- A body is left to the node in which its construct ends. -/
theorem HasEdge.eq_end_of_leaves {kind : ControlKind}
    (edge : HasEdge (targetSection dictionary target).value source destination)
    (above : Reached target script.1 none construct count join)
    (found : target.block? construct = some block) (control : block.control? = some kind)
    (inside : IsBodyId (scriptPen target dictionary script.2) construct source)
    (outside : ¬ IsBodyId (scriptPen target dictionary script.2) construct destination) :
    destination = (scriptPen target dictionary script.2).name ⟨construct, joinRole kind⟩ := by
  obtain ⟨start, inside, rfl⟩ := inside
  obtain ⟨finish, drawn, rfl⟩ := edge.exists_finish linked distinct chosen inside.hasBlock
  have beyond : ¬ InBody target construct finish.owner := fun within =>
    outside ⟨finish, within, rfl⟩
  rw [drawn.eq_end_of_leaves linked (isRoot_of_mem_zipIdx chosen) above found control inside beyond]

/-- A body is entered from the block of its construct, at the first block of a branch. -/
theorem HasEdge.eq_first_of_enters
    (edge : HasEdge (targetSection dictionary target).value source destination)
    (outside : ¬ IsBodyId (scriptPen target dictionary script.2) construct source)
    (inside : IsBodyId (scriptPen target dictionary script.2) construct destination) :
    source = (scriptPen target dictionary script.2).name (.ofBlock construct) ∧
      ∃ link next, link ≠ .next ∧ Follows target construct link next ∧
        destination = (scriptPen target dictionary script.2).name (.ofBlock next) := by
  have root := isRoot_of_mem_zipIdx chosen
  obtain ⟨finish, inside, rfl⟩ := inside
  obtain rfl | ⟨start, drawn, rfl⟩ := edge.exists_start linked distinct chosen inside.hasBlock
  · exact absurd root (inside.not_isRoot linked)
  · have beyond : ¬ InBody target construct start.owner := fun within =>
      outside ⟨start, within, rfl⟩
    obtain ⟨rfl, link, next, branch, follows, rfl⟩ :=
      drawn.eq_first_of_enters linked root beyond inside
    exact ⟨rfl, link, next, branch, follows, rfl⟩

/-- Nothing leads out of an endless loop. -/
theorem stays_in_forever (above : Reached target script.1 none construct count join)
    (within : count < linkLimit) (found : target.block? construct = some block)
    (control : block.control? = some .forever)
    (way : ReflTransGen (HasEdge (targetSection dictionary target).value)
      ((scriptPen target dictionary script.2).name (.ofBlock construct)) destination) :
    destination = (scriptPen target dictionary script.2).name (.ofBlock construct) ∨
      destination = (scriptPen target dictionary script.2).name ⟨construct, .again⟩ ∨
        IsBodyId (scriptPen target dictionary script.2) construct destination := by
  have present := hasBlock_of_block? found
  -- an edge from the loop itself or from the end of its body
  have from_loop : ∀ {start : Node} {next : String},
      start = .ofBlock construct ∨ start = ⟨construct, .again⟩ →
        HasEdge (targetSection dictionary target).value
          ((scriptPen target dictionary script.2).name start) next →
        next = (scriptPen target dictionary script.2).name (.ofBlock construct) ∨
          next = (scriptPen target dictionary script.2).name ⟨construct, .again⟩ ∨
            IsBodyId (scriptPen target dictionary script.2) construct next := by
    intro start next start_eq edge
    have present' : target.hasBlock start.owner = true := by
      obtain rfl | rfl := start_eq <;> exact present
    obtain ⟨finish, drawn, rfl⟩ := edge.exists_finish linked distinct chosen present'
    have stays := drawn.stays_in_forever linked (isRoot_of_mem_zipIdx chosen) above within found
      control start_eq
    exact stays.imp (congrArg _) (Or.imp (congrArg _) fun inside => ⟨finish, inside, rfl⟩)
  -- induction on the edges: each keeps to the loop, the end of its body, and the body
  induction way with
  | refl => exact .inl rfl
  | @tail before next _ edge ih =>
    obtain rfl | rfl | inside := ih
    · exact from_loop (.inl rfl) edge
    · exact from_loop (.inr rfl) edge
    · by_cases stays : IsBodyId (scriptPen target dictionary script.2) construct next
      · exact .inr (.inr stays)
      · exact .inr (.inl
          (edge.eq_end_of_leaves linked distinct chosen above found control inside stays))

end

/-- Constructs have one way in and one way out. In the lines of a well-linked target, an edge that
leaves the body of a construct goes to the node in which the construct ends, and an edge that enters
the body leads from the construct to the first block of a branch. From an endless loop no edges lead
anywhere but to the loop, to the end of its body and into the body. -/
theorem body_targetSection {target : Target} (linked : WellLinked target)
    (distinct : CollisionFree target) (dictionary : Dictionary) :
    ∀ script ∈ target.entryPoints.zipIdx, ∀ construct count join block kind,
      Reached target script.1 none construct count join → count ≤ 500 →
      target.block? construct = some block → block.control? = some kind →
        (∀ source destination,
          HasEdge (targetSection dictionary target).value source destination →
          IsBodyId (scriptPen target dictionary script.2) construct source →
          ¬ IsBodyId (scriptPen target dictionary script.2) construct destination →
            destination =
              (scriptPen target dictionary script.2).name ⟨construct, joinRole kind⟩) ∧
        (∀ source destination,
          HasEdge (targetSection dictionary target).value source destination →
          ¬ IsBodyId (scriptPen target dictionary script.2) construct source →
          IsBodyId (scriptPen target dictionary script.2) construct destination →
            source = (scriptPen target dictionary script.2).name (.ofBlock construct) ∧
              ∃ link next, link ≠ .next ∧ Follows target construct link next ∧
                destination = (scriptPen target dictionary script.2).name (.ofBlock next)) ∧
        (kind = .forever → ∀ destination,
          ReflTransGen (HasEdge (targetSection dictionary target).value)
            ((scriptPen target dictionary script.2).name (.ofBlock construct)) destination →
          destination = (scriptPen target dictionary script.2).name (.ofBlock construct) ∨
            destination = (scriptPen target dictionary script.2).name ⟨construct, .again⟩ ∨
              IsBodyId (scriptPen target dictionary script.2) construct destination) := by
  intro script chosen construct count join block kind above within found control
  refine ⟨?_, ?_, ?_⟩
  · intro source destination edge inside outside
    exact edge.eq_end_of_leaves linked distinct chosen above found control inside outside
  · intro source destination edge outside inside
    exact edge.eq_first_of_enters linked distinct chosen outside inside
  · rintro rfl destination way
    exact stays_in_forever linked distinct chosen above (Nat.lt_succ_of_le within) found control way

/-- No edges lead from the endless loop of the sample back to the block above it. -/
theorem not_reflTransGen_sampleTarget_loop :
    ¬ ReflTransGen (HasEdge (targetSection .english sampleTarget).value)
      ((scriptPen sampleTarget .english 0).name (.ofBlock "loop"))
      ((scriptPen sampleTarget .english 0).name (.ofBlock "flag")) := by
  have linked := wellLinked_sampleTarget
  have distinct := collisionFree_sampleTarget
  have chosen : ("flag", 0) ∈ sampleTarget.entryPoints.zipIdx := by decide +kernel
  have flag : IsRoot sampleTarget "flag" := ⟨_, rfl, rfl⟩
  have apart : ∀ node : Node, sampleTarget.hasBlock node.owner = true →
      (scriptPen sampleTarget .english 0).name (.ofBlock "flag") =
        (scriptPen sampleTarget .english 0).name node → .ofBlock "flag" = node :=
    fun node present same => (name_inj distinct chosen chosen flag.hasBlock present same).2
  intro way
  obtain same | same | ⟨node, inside, same⟩ :=
    (body_targetSection linked distinct .english ("flag", 0) chosen "loop" 1 _ _ .forever
      reached_loop_sampleTarget (by decide) rfl rfl).2.2 rfl _ way
  · exact absurd (apart _ rfl same) (by decide)
  · exact absurd (apart _ rfl same) (by decide)
  · obtain rfl := apart node inside.hasBlock same
    exact inside.not_isRoot linked flag

end ScriptChart.Chart
