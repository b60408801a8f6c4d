import ScriptChart.Proofs.Chart.Lines
import ScriptChart.Proofs.Flow.Size

/-!
# How often the lines of a script repeat a block

The lines of a script declare the node of a block at most once more than the script expands loops,
whatever the links of the target are, and a few lines are drawn for each such node. In the number of
loops this is not linear: there are targets whose scripts declare a block as often as there are sets
of loops, for every number of loops up to the limit of links. Beyond the limit a script is cut, so
that one number bounds the lines of all scripts.

## Main definitions

* `timesDeclared`: how often the lines of a script declare the node of a block.

## Main results

* `length_value_scriptSection_le`: a script has no more lines than steps, but for one.
* `repetition_scriptSection`: the bounds, and that they are attained.
* `not_linear_timesDeclared`: no linear bound holds.
-/

namespace ScriptChart.Chart

open ScriptChart.Diagram ScriptChart.Flow ScriptChart.Phrase ScriptChart.Project

/-- How often the lines of a script declare the node of a block. -/
def timesDeclared (target : Target) (dictionary : Dictionary) (script : String × Nat)
    (id : String) : Nat :=
  (scriptSection target dictionary target.entryPoints.length script).value.countP fun line =>
    line.declared? = some ((scriptPen target dictionary script.2).name (.ofBlock id))

namespace Pen

variable (pen : Pen) {asked : Statement → Bool} {chosen : Step → Bool} {steps : List Step}

/-- No step has more than one line. -/
theorem length_value_draw_le (step : Step) : (pen.draw step).value.length ≤ 1 := by
  cases step with
  | block id links =>
    simp only [draw, block]
    split
    · exact Nat.le_refl 1
    · exact Nat.zero_le 1
  | rejoin source enclosing continuation =>
    simp only [draw]
    split <;> exact Nat.le_refl 1
  | missing id link name => exact Nat.zero_le 1
  | join _ | edge _ _ | branch _ _ _ | leaf _ | cut _ => exact Nat.le_refl 1

/-- There are no more lines that are asked for than steps that draw such lines. -/
theorem countP_drawn_le (told : ∀ step ∈ steps, ∀ line ∈ (pen.draw step).value,
      asked line = true → chosen step = true) :
    (pen.drawn steps).countP asked ≤ steps.countP chosen := by
  induction steps with
  | nil => exact Nat.le_refl 0
  | cons step rest ih =>
    have later := ih fun other inside => told other (List.mem_cons_of_mem step inside)
    have whole : pen.drawn (step :: rest) = (pen.draw step).value ++ pen.drawn rest := rfl
    rw [whole, List.countP_append, List.countP_cons]
    by_cases is : chosen step = true
    · have one : (pen.draw step).value.countP asked ≤ 1 :=
        Nat.le_trans List.countP_le_length (pen.length_value_draw_le step)
      rw [if_pos is]
      omega
    · have nothing : (pen.draw step).value.countP asked = 0 :=
        List.countP_eq_zero.mpr fun line inside asks =>
          is (told step List.mem_cons_self line inside asks)
      omega

/-- There are no more lines than steps. -/
theorem length_drawn_le (steps : List Step) : (pen.drawn steps).length ≤ steps.length := by
  have all : (pen.drawn steps).countP (fun _ => true) ≤ steps.countP fun _ => true :=
    pen.countP_drawn_le fun _ _ _ _ _ => rfl
  simpa using all

/-- There are no fewer lines that are asked for than steps that draw such a line. -/
theorem le_countP_drawn (drawn : ∀ step ∈ steps, chosen step = true →
      ∃ line ∈ (pen.draw step).value, asked line = true) :
    steps.countP chosen ≤ (pen.drawn steps).countP asked := by
  induction steps with
  | nil => exact Nat.le_refl 0
  | cons step rest ih =>
    have later := ih fun other inside => drawn other (List.mem_cons_of_mem step inside)
    have whole : pen.drawn (step :: rest) = (pen.draw step).value ++ pen.drawn rest := rfl
    rw [whole, List.countP_append, List.countP_cons]
    by_cases is : chosen step = true
    · have one : 0 < (pen.draw step).value.countP asked :=
        List.countP_pos_iff.mpr (drawn step List.mem_cons_self is)
      rw [if_pos is]
      omega
    · rw [if_neg is]
      omega

end Pen

section

variable {target : Target} {dictionary : Dictionary} {script : String × Nat} {id : String}

theorem timesDeclared_eq :
    timesDeclared target dictionary script id =
      ((scriptPen target dictionary script.2).drawn (scriptSteps target script.1)).countP
        fun line =>
          line.declared? = some ((scriptPen target dictionary script.2).name (.ofBlock id)) := by
  rw [timesDeclared, value_scriptSection, List.countP_cons_of_neg]
  simp [Statement.declared?]

/-- Every step that declares a block has a line that does. -/
theorem length_declaring_le_timesDeclared (script : String × Nat) :
    (declaring (.ofBlock id) (scriptSteps target script.1)).length ≤
      timesDeclared target dictionary script id := by
  rw [declaring, ← List.countP_eq_length_filter, timesDeclared_eq]
  apply Pen.le_countP_drawn
  intro step walked declares
  simp only [decide_eq_true_eq] at declares ⊢
  obtain ⟨line, drawn⟩ := exists_mem_draw dictionary script.2 walked
    (.inl (by simp [declares]))
  refine ⟨line, drawn, ?_⟩
  rw [Pen.declared?_of_mem_draw _ drawn, declares]
  rfl

/-- Without collisions there are no other lines that declare a block. -/
theorem timesDeclared_le_length_declaring (distinct : CollisionFree target)
    (chosen : script ∈ target.entryPoints.zipIdx) (present : target.hasBlock id = true) :
    timesDeclared target dictionary script id ≤
      (declaring (.ofBlock id) (scriptSteps target script.1)).length := by
  rw [declaring, ← List.countP_eq_length_filter, timesDeclared_eq]
  apply Pen.countP_drawn_le
  intro step walked line drawn declares
  simp only [decide_eq_true_eq] at declares ⊢
  rw [Pen.declared?_of_mem_draw _ drawn] at declares
  obtain ⟨node, is, same⟩ := Option.map_eq_some_iff.mp declares
  have present' : target.hasBlock node.owner = true :=
    Step.owner_of_declared? is ▸ Call.hasBlock_owner walked
  obtain ⟨-, rfl⟩ := name_inj distinct chosen chosen present' present same
  exact is

end

/-- The first line leads to the script, and the others are those of its steps. -/
theorem length_value_scriptSection_le (target : Target) (dictionary : Dictionary)
    (script : String × Nat) :
    (scriptSection target dictionary target.entryPoints.length script).value.length ≤
      1 + (scriptSteps target script.1).length := by
  have drawn := (scriptPen target dictionary script.2).length_drawn_le (scriptSteps target script.1)
  rw [value_scriptSection, List.length_cons]
  omega

theorem mem_zipIdx_nest (count : Nat) : (nestId 0, 0) ∈ (nest count).entryPoints.zipIdx := by
  simp [entryPoints_nest]

theorem hasBlock_nest (count : Nat) : (nest count).hasBlock (nestId count) = true :=
  hasBlock_of_block? (block?_nest (Nat.le_refl count))

theorem two_pow_le_timesDeclared_nest {count : Nat} (within : count ≤ linkLimit)
    (dictionary : Dictionary) :
    2 ^ count ≤ timesDeclared (nest count) dictionary (nestId 0, 0) (nestId count) := by
  rw [← length_declaring_nest within]
  exact length_declaring_le_timesDeclared (nestId 0, 0)

theorem timesDeclared_nest {count : Nat} (within : count ≤ linkLimit) (dictionary : Dictionary)
    (distinct : CollisionFree (nest count)) :
    timesDeclared (nest count) dictionary (nestId 0, 0) (nestId count) = 2 ^ count := by
  refine Nat.le_antisymm ?_ (two_pow_le_timesDeclared_nest within dictionary)
  rw [← length_declaring_nest within]
  exact timesDeclared_le_length_declaring distinct (mem_zipIdx_nest count) (hasBlock_nest count)

/-- How often a script repeats a block. It declares the node of a block at most once more than it
expands loops, and so at most as often as there are sets of loops; without collisions of ids the
same holds of its lines. It has a few lines for each node of a block, and no more lines than one
number that is the same for all targets. For every number of loops up to the limit of links there is
a target with a script that declares a block as often as there are sets of loops. -/
theorem repetition_scriptSection :
    (∀ (target : Target) (entry id : String),
      (declaring (.ofBlock id) (scriptSteps target entry)).length ≤ 1 + expansions target entry ∧
        1 + expansions target entry ≤ 2 ^ (loops target).length) ∧
    (∀ (target : Target) (dictionary : Dictionary), CollisionFree target →
      ∀ script ∈ target.entryPoints.zipIdx, ∀ id, target.hasBlock id = true →
        timesDeclared target dictionary script id ≤ 1 + expansions target script.1) ∧
    (∀ (target : Target) (dictionary : Dictionary) (script : String × Nat),
      let lines := (scriptSection target dictionary target.entryPoints.length script).value
      lines.length ≤ 1 + 8 * (target.blocks.entries.length * (1 + expansions target script.1)) ∧
        lines.length ≤ 1 + 8 ^ (linkLimit + 1)) ∧
    ∀ count ≤ 501, ∃ target, (loops target).length = count ∧
      ∃ script ∈ target.entryPoints.zipIdx, ∃ id, target.hasBlock id = true ∧
        (declaring (.ofBlock id) (scriptSteps target script.1)).length = 2 ^ count ∧
          ∀ dictionary, 2 ^ count ≤ timesDeclared target dictionary script id ∧
            (CollisionFree target → timesDeclared target dictionary script id = 2 ^ count) := by
  refine ⟨?_, ?_, ?_, ?_⟩
  · intro target entry id
    have bound := expansions_lt_two_pow target entry
    exact ⟨length_declaring_le_expansions target entry id, by omega⟩
  · intro target dictionary distinct script chosen id present
    exact Nat.le_trans (timesDeclared_le_length_declaring distinct chosen present)
      (length_declaring_le_expansions target script.1 id)
  · intro target dictionary script
    have lines := length_value_scriptSection_le target dictionary script
    exact ⟨Nat.le_trans lines (Nat.add_le_add_left (length_scriptSteps_le target script.1) 1),
      Nat.le_trans lines (Nat.add_le_add_left (length_scriptSteps_le_pow target script.1) 1)⟩
  · intro count within
    exact ⟨nest count, length_loops_nest count, (nestId 0, 0), mem_zipIdx_nest count,
      nestId count, hasBlock_nest count, length_declaring_nest within, fun dictionary =>
        ⟨two_pow_le_timesDeclared_nest within dictionary, timesDeclared_nest within dictionary⟩⟩

theorem collisionFree_nest_two : CollisionFree (nest 2) := by decide +kernel

/-- The last block of two loops that lead to the next one both ways is declared at most four
times. -/
theorem timesDeclared_nest_two_le :
    timesDeclared (nest 2) .english (nestId 0, 0) (nestId 2) ≤ 4 := by
  have expanded : expansions (nest 2) (nestId 0) = 3 := rfl
  have bound := repetition_scriptSection.2.1 (nest 2) .english collisionFree_nest_two (nestId 0, 0)
    (mem_zipIdx_nest 2) (nestId 2) (hasBlock_nest 2)
  rwa [expanded] at bound

/-- A script may declare a block more often than once more than there are loops. -/
theorem not_linear_timesDeclared :
    ¬ ∀ (target : Target) (dictionary : Dictionary), CollisionFree target →
      ∀ script ∈ target.entryPoints.zipIdx, ∀ id, target.hasBlock id = true →
        timesDeclared target dictionary script id ≤ 1 + (loops target).length := by
  intro linear
  have bound := linear (nest 2) .english collisionFree_nest_two (nestId 0, 0) (mem_zipIdx_nest 2)
    (nestId 2) (hasBlock_nest 2)
  have often := two_pow_le_timesDeclared_nest (show 2 ≤ linkLimit by decide) .english
  rw [length_loops_nest] at bound
  omega

end ScriptChart.Chart
