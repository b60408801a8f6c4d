import ScriptChart.Label.Report

/-!
# Reports made one after the other

The value and the faults of a list of reports that are made in turn: the values in a list, and the
faults strung together.
-/

namespace ScriptChart.Label.Report

variable {α β : Type}

@[ext]
theorem ext {first second : Report α} (value : first.value = second.value)
    (diagnostics : first.diagnostics = second.diagnostics) : first = second := by
  cases first
  cases second
  cases value
  cases diagnostics
  rfl

@[simp]
theorem value_map (change : α → β) (report : Report α) :
    (change <$> report).value = change report.value := rfl

@[simp]
theorem diagnostics_map (change : α → β) (report : Report α) :
    (change <$> report).diagnostics = report.diagnostics := by
  change report.diagnostics ++ [] = report.diagnostics
  exact List.append_nil _

@[simp]
theorem value_mapM (report : α → Report β) (items : List α) :
    (items.mapM report).value = items.map fun item => (report item).value := by
  induction items with
  | nil => rfl
  | cons item rest ih =>
    rw [List.mapM_cons]
    simp [ih]

@[simp]
theorem diagnostics_mapM (report : α → Report β) (items : List α) :
    (items.mapM report).diagnostics = items.flatMap fun item => (report item).diagnostics := by
  induction items with
  | nil => rfl
  | cons item rest ih =>
    rw [List.mapM_cons]
    simp [ih]

/-- What comes after a report matters only at the report's value. -/
theorem bind_congr {report : Report α} {next next' : α → Report β}
    (same : next report.value = next' report.value) : (report >>= next) = (report >>= next') := by
  simp only [bind, same]

end ScriptChart.Label.Report
