import ScriptChart.CommandLine.Run
import ScriptChart.Proofs.Files.Path
import ScriptChart.Proofs.Files.Session

/-!
# What the first stages of a run come to

Before a run delivers anything, it looks for the input, reads the program there, and chooses the
dictionary. What comes of each is told by what the files of a system answer, and by nothing that a
run does. The first of them that fails settles why there is no chart.

## Main definitions

* `Finds`, `Reads`, `Chooses`: what comes of looking for the input, of reading the program, and of
  choosing the dictionary.
* `Names`: how the root is named.
* `Prepares`: what comes of all of them.
* `showing`: a world in which more was reported.

## Main results

* `finds_iff`, `reads_iff`, `chooses_iff`, `names_iff`: the functions do what these say.
* `exists_prepares`, `Prepares.run_prepare`: there is always an outcome, and the first stages of a
  run come to no other.
* `prepares_ok_iff`: by the defaults a run draws the chart of the file.
-/

namespace ScriptChart.CommandLine

open ScriptChart.Files ScriptChart.Phrase ScriptChart.Project

variable {φ : Type} (system : FileSystem φ) (files : φ)

/-! ### The input -/

/-- What comes of looking for the input at a path. -/
inductive Finds (path : String) : Except InputFault String → Prop
  | missing (absent : system.isFile files path = false) : Finds path (.error (.missing path))
  | unreachable (there : system.isFile files path = true)
      (closed : system.absolute? files path = none) : Finds path (.error .unreachable)
  | found {whole : String} (there : system.isFile files path = true)
      (leads : system.absolute? files path = some whole) : Finds path (.ok whole)

variable {system files} in
theorem finds_iff {path : String} {outcome : Except InputFault String} :
    Finds system files path outcome ↔
      onDisk files ((Host.ofSystem system).inputFile path) = outcome := by
  unfold Host.inputFile
  rw [onDisk_isFile_bind]
  constructor
  · intro finds
    cases finds with
    | missing absent => simp [absent, onDisk_throw]
    | unreachable there closed => simp [there, onDisk_absolute?_bind, closed, onDisk_throw]
    | found there leads => simp [there, onDisk_absolute?_bind, leads, onDisk_pure]
  · rintro rfl
    cases there : system.isFile files path with
    | false => exact .missing there
    | true =>
      rw [if_pos rfl, onDisk_absolute?_bind]
      cases leads : system.absolute? files path with
      | none => exact .unreachable there leads
      | some whole => exact .found there leads

/-! ### The program -/

/-- What comes of reading the program at a path. A file that cannot be read, and a directory, hold
none. -/
inductive Reads (path : String) : Except LoadError Program → Prop
  | unreadable (closed : ∀ bytes, system.look? files path ≠ some (.file bytes)) :
      Reads path (.error (.unreadable path))
  | read {bytes : List UInt8} {outcome : Except LoadError Program}
      (holds : system.look? files path = some (.file bytes))
      (gives : Program.ofFileBytes path bytes = outcome) : Reads path outcome

variable {system files} in
theorem reads_iff {path : String} {outcome : Except LoadError Program} :
    Reads system files path outcome ↔
      onDisk files (Program.ofFile (Host.ofSystem system) path) = outcome := by
  unfold Program.ofFile
  rw [onDisk_look?_bind]
  constructor
  · intro reads
    cases reads with
    | unreadable closed =>
      split
      · rename_i bytes holds
        exact absurd holds (closed bytes)
      · exact onDisk_throw _ _
    | read holds gives =>
      rw [holds]
      exact (onDisk_liftM _ _).trans gives
  · rintro rfl
    split
    · rename_i bytes holds
      exact .read holds (onDisk_liftM _ _).symm
    · rename_i closed
      exact .unreadable closed

/-! ### The dictionary -/

/-- What comes of choosing the dictionary: the one in the file at a path if there is a path, else
that of the locale. A file that does not hold text is as good as none. -/
inductive Chooses (locale : LocaleName) :
    Option String → Except DictionaryError Dictionary → Prop
  | builtIn : Chooses locale none (.ok (.ofLocale locale))
  | unreadable {path : String} (closed : ∀ bytes, system.look? files path = some (.file bytes) →
      String.fromUTF8? ⟨bytes.toArray⟩ = none) :
      Chooses locale (some path) (.error (.unreadable path))
  | malformed {path text : String} {bytes : List UInt8}
      (holds : system.look? files path = some (.file bytes))
      (decodes : String.fromUTF8? ⟨bytes.toArray⟩ = some text)
      (other : Dictionary.ofText? text = none) :
      Chooses locale (some path) (.error (.malformed path))
  | chosen {path text : String} {bytes : List UInt8} {dictionary : Dictionary}
      (holds : system.look? files path = some (.file bytes))
      (decodes : String.fromUTF8? ⟨bytes.toArray⟩ = some text)
      (spells : Dictionary.ofText? text = some dictionary) :
      Chooses locale (some path) (.ok dictionary)

variable {system files} in
theorem chooses_iff {locale : LocaleName} {path : Option String}
    {outcome : Except DictionaryError Dictionary} :
    Chooses system files locale path outcome ↔
      onDisk files (Dictionary.select (Host.ofSystem system) path locale) = outcome := by
  constructor
  · intro chooses
    cases chooses with
    | builtIn => exact onDisk_pure _ _
    | unreadable closed =>
      unfold Dictionary.select Dictionary.ofFile
      dsimp only
      rw [onDisk_look?_bind]
      split
      · rename_i bytes holds
        rw [closed bytes holds, onDisk_throw]
      · exact onDisk_throw _ _
    | malformed holds decodes other =>
      unfold Dictionary.select Dictionary.ofFile
      simp [onDisk_look?_bind, holds, decodes, other, onDisk_throw]
    | chosen holds decodes spells =>
      unfold Dictionary.select Dictionary.ofFile
      simp [onDisk_look?_bind, holds, decodes, spells, onDisk_pure]
  · rintro rfl
    cases path with
    | none => exact .builtIn
    | some path =>
      unfold Dictionary.select Dictionary.ofFile
      dsimp only
      rw [onDisk_look?_bind]
      split
      · rename_i bytes holds
        split
        · rename_i text decodes
          split
          · rename_i dictionary spells
            exact .chosen holds decodes spells
          · rename_i other
            exact .malformed holds decodes other
        · rename_i broken
          refine .unreadable fun other same => ?_
          obtain rfl : bytes = other := by simpa [holds] using same
          exact broken
      · rename_i closed
        exact .unreadable fun bytes holds => absurd holds (closed bytes)

/-! ### The name of the root -/

/-- How the root is named: as it is asked for, else by the stem of the input. -/
inductive Names (arguments : Arguments) (input : String) : String → Prop
  | given {name : String} (asked : arguments.name = some name) : Names arguments input name
  | stem {name : String} (unasked : arguments.name = none) (stem : IsStem input name) :
      Names arguments input name

theorem names_iff {arguments : Arguments} {input name : String} :
    Names arguments input name ↔ arguments.name.getD (stem input) = name := by
  constructor
  · intro names
    cases names with
    | given asked => simp [asked]
    | stem unasked stem => simp [unasked, isStem_iff.mp stem]
  · rintro rfl
    cases asked : arguments.name with
    | some name => exact .given asked
    | none => exact .stem asked (isStem_iff.mpr rfl)

/-! ### All of them -/

/-- What comes of preparing the chart that is asked for: the first fault in looking for the input,
reading the program and choosing the dictionary, in this order, else the chart. -/
inductive Prepares (arguments : Arguments) : Except Failure Chart → Prop
  | input {fault : InputFault} (lost : Finds system files arguments.input (.error fault)) :
      Prepares arguments (.error (.input fault))
  | load {input : String} {fault : LoadError}
      (found : Finds system files arguments.input (.ok input))
      (broken : Reads system files input (.error fault)) :
      Prepares arguments (.error (.load input fault))
  | dictionary {input : String} {program : Program} {fault : DictionaryError}
      (found : Finds system files arguments.input (.ok input))
      (read : Reads system files input (.ok program))
      (broken : Chooses system files arguments.locale arguments.dictionary (.error fault)) :
      Prepares arguments (.error (.dictionary fault))
  | drawn {input name : String} {program : Program} {dictionary : Dictionary}
      (found : Finds system files arguments.input (.ok input))
      (read : Reads system files input (.ok program))
      (chosen : Chooses system files arguments.locale arguments.dictionary (.ok dictionary))
      (named : Names arguments input name) :
      Prepares arguments
        (.ok (Chart.ofProgram program ⟨name, arguments.direction, dictionary⟩))

/-- There is always something that comes of it. -/
theorem exists_prepares (arguments : Arguments) :
    ∃ outcome, Prepares system files arguments outcome := by
  cases found : onDisk files ((Host.ofSystem system).inputFile arguments.input) with
  | error fault => exact ⟨_, .input (finds_iff.mpr found)⟩
  | ok input =>
    cases read : onDisk files (Program.ofFile (Host.ofSystem system) input) with
    | error fault => exact ⟨_, .load (finds_iff.mpr found) (reads_iff.mpr read)⟩
    | ok program =>
      cases chosen : onDisk files (Dictionary.select (Host.ofSystem system) arguments.dictionary
        arguments.locale) with
      | error fault => exact ⟨_, .dictionary (finds_iff.mpr found) (reads_iff.mpr read)
          (chooses_iff.mpr chosen)⟩
      | ok dictionary => exact ⟨_, .drawn (finds_iff.mpr found) (reads_iff.mpr read)
          (chooses_iff.mpr chosen) (names_iff.mpr rfl)⟩

/-- Without a name, a direction and a dictionary of its own, a run draws the chart of the file. -/
theorem prepares_ok_iff {arguments : Arguments} (unnamed : arguments.name = none)
    (down : arguments.direction = .topDown) (builtIn : arguments.dictionary = none)
    (chart : Chart) :
    Prepares system files arguments (.ok chart) ↔
      onDisk files (Chart.ofFile (Host.ofSystem system) arguments.input arguments.locale) =
        .ok chart := by
  unfold Chart.ofFile
  rw [(looks_inputFile system _).onDisk_adapt_bind]
  constructor
  · intro prepares
    cases prepares with
    | @drawn input _ _ _ found read chosen named =>
      obtain rfl := names_iff.mp named
      rw [builtIn] at chosen
      cases chosen
      rw [finds_iff.mp found]
      dsimp only
      rw [(looks_ofFile system input).onDisk_adapt_bind, reads_iff.mp read]
      simp [onDisk_pure, unnamed, down]
  · intro drawn
    cases found : onDisk files ((Host.ofSystem system).inputFile arguments.input) with
    | error fault => simp [found] at drawn
    | ok input =>
      simp only [found, (looks_ofFile system input).onDisk_adapt_bind] at drawn
      cases read : onDisk files (Program.ofFile (Host.ofSystem system) input) with
      | error fault => simp [read] at drawn
      | ok program =>
        simp only [read, onDisk_pure, Except.ok.injEq] at drawn
        have chosen : Chooses system files arguments.locale arguments.dictionary
            (.ok (.ofLocale arguments.locale)) := builtIn ▸ .builtIn
        have prepares := Prepares.drawn (finds_iff.mpr found) (reads_iff.mpr read) chosen
          (names_iff.mpr rfl)
        rwa [unnamed, down, Option.getD_none, drawn] at prepares

/-! ### Announcements -/

/-- The lines that announce stages. -/
def Arguments.announced (arguments : Arguments) (stages : List Stage) : String :=
  String.join (stages.map fun stage => arguments.announcement stage ++ "\n")

@[simp]
theorem announced_nil (arguments : Arguments) : arguments.announced [] = "" := rfl

@[simp]
theorem announced_cons (arguments : Arguments) (stage : Stage) (rest : List Stage) :
    arguments.announced (stage :: rest) =
      arguments.announcement stage ++ "\n" ++ arguments.announced rest := by
  simp [Arguments.announced, String.join_cons]

/-- The stages that a run has entered when it fails. -/
def Failure.reached : Failure → List Stage
  | .input _ => [.input]
  | .load _ _ | .dictionary _ => [.input, .project]
  | .noDirectory | .unwritable _ => [.input, .project, .chart, .output]

/-- The stages that a run has entered when it has prepared the chart, or failed to. -/
def entered : Except Failure Chart → List Stage
  | .ok _ => [.input, .project, .chart]
  | .error failure => failure.reached

/-- A world in which a text about the progress or about faults was shown as well. -/
def showing (world : World φ) (text : String) : World φ :=
  { world with reported := world.reported ++ text }

@[simp]
theorem disk_showing (world : World φ) (text : String) :
    (showing world text).disk = world.disk := rfl

@[simp]
theorem showing_showing (world : World φ) (first second : String) :
    showing (showing world first) second = showing world (first ++ second) := by
  simp [showing, String.append_assoc]

theorem run_report_bind {ε α : Type} (line : String)
    (next : Unit → ExceptT ε (StateM (World φ)) α) (world : World φ) :
    ((liftM ((Host.ofSystem system).report line) : ExceptT ε (StateM (World φ)) Unit) >>= next).run
        world =
      (next ()).run (showing world (line ++ "\n")) := by
  rw [run_liftM_bind]
  simp [Host.ofSystem, showing, String.append_assoc]

/-- A stage announces itself and looks at the files. If it fails, so does all that follows. -/
theorem run_stage {ε ε' α β : Type} (line : String) {action : ExceptT ε (StateM (World φ)) α}
    (looks : Looks action) (wrap : ε → ε') (next : α → ExceptT ε' (StateM (World φ)) β)
    (world : World φ) :
    ((liftM ((Host.ofSystem system).report line) : ExceptT ε' (StateM (World φ)) Unit) >>= fun _ =>
        action.adapt wrap >>= next).run world =
      match onDisk world.disk action with
      | .ok value => (next value).run (showing world (line ++ "\n"))
      | .error fault => (.error (wrap fault), showing world (line ++ "\n")) := by
  rw [run_report_bind]
  exact looks.run_adapt_bind wrap next (showing world (line ++ "\n"))

variable {system} in
/-- The first stages of a run come to what the answers of the files settle. They announce
themselves, and change nothing else. -/
theorem Prepares.run_prepare {arguments : Arguments} {world : World φ}
    {outcome : Except Failure Chart} (prepares : Prepares system world.disk arguments outcome) :
    (prepare (Host.ofSystem system) arguments).run world =
      (outcome, showing world (arguments.announced (entered outcome))) := by
  unfold prepare
  -- one case for each stage that may fail, and one for the chart
  cases prepares with
  | input lost =>
    rw [run_stage _ _ (looks_inputFile system _), finds_iff.mp lost]
    simp [entered, Failure.reached]
  | @load input _ found broken =>
    rw [run_stage _ _ (looks_inputFile system _), finds_iff.mp found]
    dsimp only
    rw [run_stage _ _ (looks_ofFile system input), disk_showing, reads_iff.mp broken]
    simp [entered, Failure.reached]
  | @dictionary input _ _ found read broken =>
    rw [run_stage _ _ (looks_inputFile system _), finds_iff.mp found]
    dsimp only
    rw [run_stage _ _ (looks_ofFile system input), disk_showing, reads_iff.mp read]
    dsimp only
    rw [(looks_select system _ _).run_adapt_bind, disk_showing, disk_showing, chooses_iff.mp broken]
    simp [entered, Failure.reached]
  | @drawn input _ _ _ found read chosen named =>
    obtain rfl := names_iff.mp named
    rw [run_stage _ _ (looks_inputFile system _), finds_iff.mp found]
    dsimp only
    rw [run_stage _ _ (looks_ofFile system input), disk_showing, reads_iff.mp read]
    dsimp only
    rw [(looks_select system _ _).run_adapt_bind, disk_showing, disk_showing, chooses_iff.mp chosen]
    dsimp only
    rw [run_report_bind, showing_showing, showing_showing]
    simp [entered, String.append_assoc]
    rfl

end ScriptChart.CommandLine
