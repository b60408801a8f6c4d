import ScriptChart.Diagnostic

/-!
# Values with the faults found on the way

Putting a label together may meet faults, which are reported beside the label in the order in
which they were met. While one label is built, a trail keeps the blocks whose references were
already expanded, so that a value that refers to itself is cut.

## Main definitions

* `Report`: a value and the faults met on the way to it.
* `Trail`: the references expanded so far, and how deep the present one is nested.
* `Rendering`: a report that reads and extends a trail.
-/

namespace ScriptChart.Label

/-- A value and the faults met on the way to it, in order. -/
structure Report (α : Type) where
  value : α
  diagnostics : List Diagnostic
deriving Repr

namespace Report

instance : Monad Report where
  pure value := ⟨value, []⟩
  bind first next :=
    let second := next first.value
    ⟨second.value, first.diagnostics ++ second.diagnostics⟩

instance : LawfulMonad Report :=
  LawfulMonad.mk' Report
    (fun report => by simp [Functor.map])
    (fun value next => by simp [bind, pure])
    (fun report first second => by simp [bind])

/-- Reports a fault. -/
def fault (diagnostic : Diagnostic) : Report Unit := ⟨(), [diagnostic]⟩

@[simp]
theorem value_pure {α : Type} (value : α) : (pure value : Report α).value = value := rfl

@[simp]
theorem diagnostics_pure {α : Type} (value : α) : (pure value : Report α).diagnostics = [] := rfl

@[simp]
theorem value_bind {α β : Type} (report : Report α) (next : α → Report β) :
    (report >>= next).value = (next report.value).value := rfl

@[simp]
theorem diagnostics_bind {α β : Type} (report : Report α) (next : α → Report β) :
    (report >>= next).diagnostics = report.diagnostics ++ (next report.value).diagnostics := rfl

end Report

/-- The blocks whose references were expanded, the last first, and how many expansions the present
one lies within. -/
structure Trail where
  expanded : List String := []
  depth : Nat := 0
deriving DecidableEq, Repr

namespace Trail

/-- The trail before the first reference. -/
def start : Trail := {}

/-- Goes into the expansion of a block. -/
def enter (trail : Trail) (id : String) : Trail := ⟨id :: trail.expanded, trail.depth + 1⟩

/-- Comes out of an expansion. What was expanded stays known. -/
def leave (trail : Trail) : Trail := { trail with depth := trail.depth - 1 }

end Trail

/-- A report that reads and extends a trail. -/
abbrev Rendering := StateT Trail Report

/-- Renders with a trail of its own. -/
def Rendering.freshly {α : Type} (rendering : Rendering α) : Report α :=
  Prod.fst <$> rendering.run .start

end ScriptChart.Label
