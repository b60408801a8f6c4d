import ScriptChart.Proofs.CommandLine.Prepare
import ScriptChart.Proofs.Files.Disk

/-!
# What a run comes to

A run on the files of a system is told by what they answer. If there is no chart, the first fault is
why the run fails, nothing but the announcements is shown, and the files stay as they were.
Otherwise the faults of the chart are shown if they are asked for, and its text is either shown or
written to the output, and never both.

## Main definitions

* `Arguments.warnings`: what is shown of the faults of a chart.
* `Ready`, `Saves`: what comes of writing a text to a file.
* `Comes`: what a run comes to.
* `strayDisk`, `strayArguments`: a disk and a run that writes a chart with a fault.

## Main results

* `Saves.run_save`, `Comes.run_eq`: a run comes to nothing else.
* `allOrNothing_run`: what a run comes to, on any files, and what the files of a disk answer.
-/

namespace ScriptChart.CommandLine

open ScriptChart.Files ScriptChart.Phrase ScriptChart.Project

variable {φ : Type} (system : FileSystem φ)

/-! ### Faults of a chart -/

/-- The lines for the faults of a chart. -/
def Arguments.warnings (arguments : Arguments) (chart : Chart) : String :=
  if arguments.diagnostics then
    String.join (chart.diagnostics.map fun fault => "warning: " ++ fault.message ++ "\n")
  else ""

theorem run_forM_report {α : Type} (line : α → String) (items : List α) (world : World φ) :
    (items.forM fun item => (Host.ofSystem system).report (line item)) world =
      ((), showing world (String.join (items.map fun item => line item ++ "\n"))) := by
  induction items generalizing world with
  | nil => simp [showing]; rfl
  | cons item rest ih =>
    change (rest.forM fun item => (Host.ofSystem system).report (line item))
      ((Host.ofSystem system).report (line item) world).2 = _
    rw [ih]
    simp [Host.ofSystem, showing, String.join_cons, String.append_assoc]

theorem run_warn (arguments : Arguments) (chart : Chart) (world : World φ) :
    warn (Host.ofSystem system) arguments chart world =
      ((), showing world (arguments.warnings chart)) := by
  unfold warn Arguments.warnings
  split
  · exact run_forM_report system (fun fault : Diagnostic => "warning: " ++ fault.message) _ world
  · simp [showing]
    rfl

/-! ### Writing the text -/

/-- The files once the directory is there that a path needs. The working directory always is. -/
inductive Ready (files : φ) (path : String) : φ → Prop
  | working (bare : directory path = "") : Ready files path files
  | made {later : φ} (needed : directory path ≠ "")
      (makes : system.makeDirectories files (directory path) = (true, later)) :
      Ready files path later

/-- What comes of writing a text to a file: how it ends, and the files then. -/
inductive Saves (files : φ) (path text : String) : Except Failure Unit → φ → Prop
  | noDirectory {later : φ} (needed : directory path ≠ "")
      (refused : system.makeDirectories files (directory path) = (false, later)) :
      Saves files path text (.error .noDirectory) later
  | unwritable {base later : φ} (ready : Ready system files path base)
      (refused : system.write base path text.toUTF8.toList = (false, later)) :
      Saves files path text (.error (.unwritable path)) later
  | written {base later : φ} (ready : Ready system files path base)
      (wrote : system.write base path text.toUTF8.toList = (true, later)) :
      Saves files path text (.ok ()) later

theorem exists_saves (files : φ) (path text : String) :
    ∃ outcome later, Saves system files path text outcome later := by
  have ofReady : ∀ base, Ready system files path base →
      ∃ outcome later, Saves system files path text outcome later := by
    intro base ready
    match wrote : system.write base path text.toUTF8.toList with
    | (false, later) => exact ⟨_, later, .unwritable ready wrote⟩
    | (true, later) => exact ⟨_, later, .written ready wrote⟩
  by_cases bare : directory path = ""
  · exact ofReady files (.working bare)
  · match makes : system.makeDirectories files (directory path) with
    | (false, later) => exact ⟨_, later, .noDirectory bare makes⟩
    | (true, later) => exact ofReady later (.made bare makes)

variable {system}

theorem run_write (path : String) (bytes : List UInt8) (world : World φ) :
    (do
      if !(← (Host.ofSystem system).write path bytes) then throw (.unwritable path) :
        ExceptT Failure (StateM (World φ)) Unit).run world =
      match system.write world.disk path bytes with
      | (true, later) => (.ok (), { world with disk := later })
      | (false, later) => (.error (.unwritable path), { world with disk := later }) := by
  rw [run_liftM_bind]
  change (if !(system.write world.disk path bytes).1 then _ else _ :
    ExceptT Failure (StateM (World φ)) Unit).run
      { world with disk := (system.write world.disk path bytes).2 } = _
  rcases system.write world.disk path bytes with ⟨_ | _, later⟩ <;> rfl

/-- Once the directory is there, the file is written. -/
theorem Ready.run_save {path text : String} {base : φ} {world : World φ}
    (ready : Ready system world.disk path base) :
    (save (Host.ofSystem system) path text).run world =
      match system.write base path text.toUTF8.toList with
      | (true, later) => (.ok (), { world with disk := later })
      | (false, later) => (.error (.unwritable path), { world with disk := later }) := by
  unfold save
  cases ready with
  | working bare =>
    rw [if_neg (not_not_intro bare)]
    exact run_write path _ world
  | made needed makes =>
    have asked : (Host.ofSystem system).makeDirectories (directory path) world =
        (true, { world with disk := base }) := by
      simp [Host.ofSystem, makes]
    rw [if_pos needed, run_liftM_bind, asked]
    exact run_write path _ { world with disk := base }

/-- Writing a text to a file shows nothing. -/
theorem Saves.run_save {path text : String} {outcome : Except Failure Unit} {later : φ}
    {world : World φ} (saves : Saves system world.disk path text outcome later) :
    (save (Host.ofSystem system) path text).run world =
      (outcome, { world with disk := later }) := by
  cases saves with
  | noDirectory needed refused =>
    have asked : (Host.ofSystem system).makeDirectories (directory path) world =
        (false, { world with disk := later }) := by
      simp [Host.ofSystem, refused]
    rw [save, if_pos needed, run_liftM_bind, asked]
    rfl
  | unwritable ready refused => rw [ready.run_save, refused]
  | written ready wrote => rw [ready.run_save, wrote]

/-! ### Whole runs -/

variable (system) in
/-- What a run comes to: how it ends, and the world then. -/
inductive Comes (files : φ) (arguments : Arguments) : Except Failure Unit → World φ → Prop
  | failed {failure : Failure} (stops : Prepares system files arguments (.error failure)) :
      Comes files arguments (.error failure) ⟨files, "", arguments.announced failure.reached⟩
  | shown {chart : Chart} (drawn : Prepares system files arguments (.ok chart))
      (unsaved : arguments.output = none) :
      Comes files arguments (.ok ()) ⟨files, chart.text,
        arguments.announced [.input, .project, .chart] ++ arguments.warnings chart⟩
  | saved {chart : Chart} {path : String} {outcome : Except Failure Unit} {later : φ}
      (drawn : Prepares system files arguments (.ok chart)) (output : arguments.output = some path)
      (saves : Saves system files path chart.text outcome later) :
      Comes files arguments outcome ⟨later, "",
        arguments.announced [.input, .project, .chart] ++ arguments.warnings chart ++
          arguments.announced [.output]⟩

variable (system) in
theorem exists_comes (files : φ) (arguments : Arguments) :
    ∃ outcome world, Comes system files arguments outcome world := by
  obtain ⟨outcome, prepares⟩ := exists_prepares system files arguments
  cases outcome with
  | error failure => exact ⟨_, _, .failed prepares⟩
  | ok chart =>
    cases output : arguments.output with
    | none => exact ⟨_, _, .shown prepares output⟩
    | some path =>
      obtain ⟨outcome, later, saves⟩ := exists_saves system files path chart.text
      exact ⟨_, _, .saved prepares output saves⟩

/-- A run that has drawn a chart shows its faults and hands over its text. -/
theorem run_of_prepares {files : φ} {arguments : Arguments} {chart : Chart}
    (drawn : Prepares system files arguments (.ok chart)) :
    (run (Host.ofSystem system) arguments).run (World.start files) =
      (deliver (Host.ofSystem system) arguments chart).run (showing (World.start files)
        (arguments.announced [.input, .project, .chart] ++ arguments.warnings chart)) := by
  have drawn : Prepares system (World.start files).disk arguments (.ok chart) := drawn
  rw [run, run_bind, drawn.run_prepare]
  change ((liftM (warn (Host.ofSystem system) arguments chart) :
    ExceptT Failure (StateM (World φ)) Unit) >>= fun _ =>
      deliver (Host.ofSystem system) arguments chart).run _ = _
  rw [run_liftM_bind, run_warn, showing_showing]
  rfl

theorem Comes.run_eq {files : φ} {arguments : Arguments} {outcome : Except Failure Unit}
    {world : World φ} (comes : Comes system files arguments outcome world) :
    (run (Host.ofSystem system) arguments).run (World.start files) = (outcome, world) := by
  cases comes with
  | failed stops =>
    have stops : Prepares system (World.start files).disk arguments (.error _) := stops
    rw [run, run_bind, stops.run_prepare]
    simp [showing, World.start, entered]
  | shown drawn unsaved =>
    rw [run_of_prepares drawn, deliver, unsaved]
    simp [Host.ofSystem, showing, World.start]
    rfl
  | saved drawn output saves =>
    rw [run_of_prepares drawn, deliver, output]
    dsimp only
    rw [run_report_bind, Saves.run_save saves]
    simp [showing, World.start]

/-- What a run comes to, on any files of any system: the first fault in looking for the input,
reading the program and choosing the dictionary, with the files as they were and nothing shown but
announcements; else the chart, whose faults are shown in order if they are asked for, and whose text
is shown without an output, and with one is written there and not shown, or cannot be. The files of
a disk answer as the places on the way of a path settle it. -/
theorem allOrNothing_run :
    (∀ (φ : Type) (system : FileSystem φ) (files : φ) (arguments : Arguments)
      (outcome : Except Failure Unit) (world : World φ),
      (run (Host.ofSystem system) arguments).run (World.start files) = (outcome, world) ↔
        Comes system files arguments outcome world) ∧
    ∀ (disk : Disk) (path : String), disk.Answers path := by
  refine ⟨fun φ system files arguments outcome world => ⟨fun done => ?_, Comes.run_eq⟩,
    Disk.answers⟩
  obtain ⟨reached, last, comes⟩ := exists_comes system files arguments
  obtain ⟨rfl, rfl⟩ := Prod.mk.inj (done.symm.trans comes.run_eq)
  exact comes

/-! ### A script that leads to a missing block -/

/-- A project with one script, which leads to a block that is missing. -/
def strayProject : List UInt8 :=
  ("\x7b\"targets\":[\x7b\"name\":\"Cat\",\"blocks\":\x7b\"a\":\x7b\"opcode\":" ++
    "\"event_whenflagclicked\",\"next\":\"b\",\"topLevel\":true\x7d\x7d\x7d]\x7d").toUTF8.toList

/-- The text of its chart. -/
def strayText : String :=
  let cat := "Tfa3ebd6742c360b2d9652b7f78d9bd7d"
  let flag := cat ++ "_0cc175b9c0f1b6a831c399e269772661"
  "flowchart TD\n    Start[cat]\n    Start --> " ++ cat ++ "[Cat]\n    " ++ cat ++ " --> " ++
    flag ++ "\n    " ++ flag ++ "(when green flag clicked)\n    " ++ flag ++ " --> " ++ flag ++
    "_end([end])\n"

/-- A disk that holds nothing but the project. -/
def strayDisk : Disk := (Disk.empty []).put ["cat.json"] (.file strayProject)

/-- Arguments that ask for its chart and its faults. -/
def strayArguments (output dictionary : Option String) : Arguments where
  input := "./cat.json"
  output := output
  name := none
  locale := .english
  dictionary := dictionary
  direction := .topDown
  diagnostics := true

theorem occupant?_strayDisk : strayDisk.occupant? ["cat.json"] = some (.file strayProject) :=
  Disk.occupant?_put_self _ (by decide) _

theorem occupant?_strayDisk_of_ne {place : Place} (below : place ≠ [])
    (other : place ≠ ["cat.json"]) : strayDisk.occupant? place = none := by
  rw [strayDisk, Disk.occupant?_put_of_ne _ other]
  obtain ⟨name, parent, rfl⟩ := List.exists_cons_of_ne_nil below
  simp [Disk.occupant?, Disk.empty, Disk.trunk]

theorem finds_strayDisk : Finds Disk.files strayDisk "./cat.json" (.ok "/cat.json") := by
  have leads : strayDisk.place? "./cat.json" = some ["cat.json"] := by decide +kernel
  have stands := Disk.look?_eq_some_iff.mpr ⟨_, leads, occupant?_strayDisk⟩
  have rooted : Place.path ["cat.json"] = "/cat.json" := by decide +kernel
  have within : ∀ on ∈ (strayDisk.way "./cat.json").tail, isPath on.path = true := by decide +kernel
  exact .found (Disk.isFile_iff.mpr ⟨_, stands⟩)
    (Disk.absolute?_eq_some_iff.mpr ⟨⟨_, _, leads, occupant?_strayDisk, rooted⟩, within⟩)

theorem exists_reads_strayDisk :
    ∃ program, Reads Disk.files strayDisk "/cat.json" (.ok program) ∧
      (Chart.ofProgram program ⟨"cat", .topDown, .ofLocale .english⟩).text = strayText ∧
      (Chart.ofProgram program ⟨"cat", .topDown, .ofLocale .english⟩).diagnostics =
        [.missingBlock "Cat" "b"] := by
  have drawn : (Program.ofFileBytes "/cat.json" strayProject).toOption.map (fun program =>
      ((Chart.ofProgram program ⟨"cat", .topDown, .ofLocale .english⟩).text,
        (Chart.ofProgram program ⟨"cat", .topDown, .ofLocale .english⟩).diagnostics)) =
      some (strayText, [.missingBlock "Cat" "b"]) := by
    decide +kernel
  have leads : strayDisk.place? "/cat.json" = some ["cat.json"] := by decide +kernel
  obtain ⟨program, read, same⟩ := Option.map_eq_some_iff.mp drawn
  obtain ⟨text, faults⟩ := Prod.mk.inj same
  have holds := Disk.look?_eq_some_iff.mpr ⟨_, leads, occupant?_strayDisk⟩
  exact ⟨program, .read holds (eq_ok_of_toOption_eq_some read), text, faults⟩

/-- The chart that is asked for, wherever its text goes. -/
theorem exists_prepares_strayDisk (output : Option String) :
    ∃ chart, Prepares Disk.files strayDisk (strayArguments output none) (.ok chart) ∧
      chart.text = strayText ∧ chart.diagnostics = [.missingBlock "Cat" "b"] := by
  obtain ⟨program, read, text, faults⟩ := exists_reads_strayDisk
  have named : Option.getD none (stem "/cat.json") = "cat" := by decide +kernel
  exact ⟨_, .drawn finds_strayDisk read .builtIn (names_iff.mpr named), text, faults⟩

/-- The directory of the output is made, and the output is written in it. -/
theorem exists_saves_strayDisk (text : String) :
    ∃ later, Saves Disk.files strayDisk "out/cat.mmd" text (.ok ()) later ∧
      later.look? "out/cat.mmd" = some (.file text.toUTF8.toList) := by
  have lies : directory "out/cat.mmd" = "out" := by decide +kernel
  have free : ∀ on ∈ (strayDisk.way "out").tail, ∀ bytes,
      strayDisk.occupant? on ≠ some (.file bytes) := by
    have way : (strayDisk.way "out").tail = [["out"]] := by decide +kernel
    simp [way, occupant?_strayDisk_of_ne]
  have makes : (strayDisk.makeDirectories "out").1 = true :=
    Disk.makeDirectories_fst_iff.mpr ⟨by decide +kernel, rfl, by decide +kernel, free⟩
  have made := Disk.isDirectory_of_makeDirectories makes
  have grows := Disk.grows_makeDirectories strayDisk "out"
  -- the disk is not computed: what it holds then follows from how it grows
  match answer : strayDisk.makeDirectories "out" with
  | (_, base) =>
    simp only [answer] at makes made grows
    subst makes
    have way : base.way "out/cat.mmd" = [[], ["out"], ["cat.mmd", "out"]] := by
      rw [Disk.way, Disk.start, grows.home]
      decide +kernel
    have ready : Ready Disk.files strayDisk "out/cat.mmd" base :=
      .made (by rw [lies]; decide) (by rw [lies]; exact answer)
    have leads : base.place? "out/cat.mmd" = some ["cat.mmd", "out"] := by
      refine Disk.place?_eq_some_iff.mpr ⟨by decide +kernel, by decide +kernel, ?_, by simp [way]⟩
      have other : strayDisk.way "out" = [[], ["out"]] := by decide +kernel
      simpa [way, other] using made
    have empty : base.isDirectory ["cat.mmd", "out"] = false := by
      have other : ["cat.mmd", "out"] ∉ strayDisk.way "out" := by decide +kernel
      have same : base.occupant? ["cat.mmd", "out"] = none := by
        rcases grows.occupant ["cat.mmd", "out"] with same | ⟨among, -⟩
        · rw [same, occupant?_strayDisk_of_ne] <;> decide
        · contradiction
      simp [Disk.isDirectory, same]
    have wrote : (Disk.files.write base "out/cat.mmd" text.toUTF8.toList).1 = true :=
      ((Disk.answers base _).writes _).mpr ⟨_, leads, empty⟩
    exact ⟨_, .written ready (Prod.ext wrote rfl), (Disk.answers base _).found _ wrote⟩

/-- There is no dictionary on the disk. -/
theorem chooses_strayDisk (locale : LocaleName) :
    Chooses Disk.files strayDisk locale (some "words.json")
      (.error (.unreadable "words.json")) := by
  have leads : strayDisk.place? "words.json" = some ["words.json"] := by decide +kernel
  have nothing : strayDisk.occupant? ["words.json"] = none :=
    occupant?_strayDisk_of_ne (by decide) (by decide)
  refine .unreadable fun bytes holds => ?_
  obtain ⟨place, same, stands⟩ := ((strayDisk.answers _).look? _).mp holds
  obtain rfl : ["words.json"] = place := Option.some.inj (leads.symm.trans same)
  simp [nothing] at stands

/-- No directory can be made where the project stands. -/
theorem makeDirectories_strayDisk : strayDisk.makeDirectories "cat.json" = (false, strayDisk) := by
  have followable : isPath "cat.json" = true := by decide +kernel
  have cut : pieces "cat.json" = ["cat.json"] := by decide +kernel
  have step : strayDisk.step? [] "cat.json" = some ["cat.json"] := by decide +kernel
  have start : strayDisk.start "cat.json" = [] := by decide +kernel
  rw [Disk.makeDirectories, if_pos followable, cut, start]
  simp [Disk.makeAlong, step, Disk.makeDirectory, Disk.isDirectory, occupant?_strayDisk]

theorem warnings_strayArguments {chart : Chart} (output dictionary : Option String)
    (faults : chart.diagnostics = [.missingBlock "Cat" "b"]) :
    (strayArguments output dictionary).warnings chart =
      "warning: Cat: reference to missing block 'b'\n" := by
  rw [Arguments.warnings, faults]
  rfl

/-- A run that makes the directory of the output and writes the chart there, one that shows it, one
that ends for want of a dictionary, and one whose output cannot be made. -/
theorem run_strayDisk :
    (∃ later,
      (run (Host.ofSystem Disk.files) (strayArguments (some "out/cat.mmd") none)).run
        (World.start strayDisk) =
          (.ok (), ⟨later, "",
            "[Flowchart] Resolving input path... (1/4) [====----------]\n" ++
            "[Flowchart] Reading project... (2/4) [=======-------]\n" ++
            "[Flowchart] Building flowchart... (3/4) [===========---]\n" ++
            "warning: Cat: reference to missing block 'b'\n" ++
            "[Flowchart] Writing diagram... (4/4) [==============]\n"⟩) ∧
      later.look? "out/cat.mmd" = some (.file strayText.toUTF8.toList)) ∧
    (run (Host.ofSystem Disk.files) (strayArguments none none)).run (World.start strayDisk) =
      (.ok (), ⟨strayDisk, strayText,
        "[Flowchart] Resolving input path... (1/3) [=====---------]\n" ++
        "[Flowchart] Reading project... (2/3) [=========-----]\n" ++
        "[Flowchart] Building flowchart... (3/3) [==============]\n" ++
        "warning: Cat: reference to missing block 'b'\n"⟩) ∧
    (run (Host.ofSystem Disk.files) (strayArguments (some "out/cat.mmd") (some "words.json"))).run
      (World.start strayDisk) =
        (.error (.dictionary (.unreadable "words.json")), ⟨strayDisk, "",
          "[Flowchart] Resolving input path... (1/4) [====----------]\n" ++
          "[Flowchart] Reading project... (2/4) [=======-------]\n"⟩) ∧
    (run (Host.ofSystem Disk.files) (strayArguments (some "cat.json/cat.mmd") none)).run
      (World.start strayDisk) =
        (.error .noDirectory, ⟨strayDisk, "",
          "[Flowchart] Resolving input path... (1/4) [====----------]\n" ++
          "[Flowchart] Reading project... (2/4) [=======-------]\n" ++
          "[Flowchart] Building flowchart... (3/4) [===========---]\n" ++
          "warning: Cat: reference to missing block 'b'\n" ++
          "[Flowchart] Writing diagram... (4/4) [==============]\n"⟩) := by
  have settled := allOrNothing_run.1 Disk Disk.files strayDisk
  refine ⟨?_, (settled _ _ _).mpr ?_, (settled _ _ _).mpr ?_, (settled _ _ _).mpr ?_⟩
  · obtain ⟨chart, drawn, text, faults⟩ := exists_prepares_strayDisk (some "out/cat.mmd")
    obtain ⟨later, saves, holds⟩ := exists_saves_strayDisk chart.text
    have comes := Comes.saved drawn rfl saves
    rw [warnings_strayArguments _ _ faults] at comes
    exact ⟨later, (settled _ _ _).mpr comes, text ▸ holds⟩
  · obtain ⟨chart, drawn, text, faults⟩ := exists_prepares_strayDisk none
    have comes := Comes.shown drawn rfl
    rw [warnings_strayArguments _ _ faults, text] at comes
    exact comes
  · obtain ⟨program, read, -⟩ := exists_reads_strayDisk
    exact .failed (.dictionary finds_strayDisk read (chooses_strayDisk _))
  · obtain ⟨chart, drawn, -, faults⟩ := exists_prepares_strayDisk (some "cat.json/cat.mmd")
    have lies : directory "cat.json/cat.mmd" = "cat.json" := by decide +kernel
    have saves : Saves Disk.files strayDisk "cat.json/cat.mmd" chart.text (.error .noDirectory)
        strayDisk :=
      .noDirectory (by rw [lies]; decide) (by rw [lies]; exact makeDirectories_strayDisk)
    have comes := Comes.saved drawn rfl saves
    rw [warnings_strayArguments _ _ faults] at comes
    exact comes

end ScriptChart.CommandLine
