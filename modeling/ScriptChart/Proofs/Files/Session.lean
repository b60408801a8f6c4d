import ScriptChart.Phrase.File
import ScriptChart.Project.File

/-!
# Actions that look at files

An action of a host with files in a state may only look at the files. What it gives then depends on
nothing else, and the world stays as it was. Looking for an input and reading a program or a
dictionary are such actions, whatever the files of a system are.

## Main definitions

* `onDisk`: what an action gives on the files in a state.
* `Looks`: an action only looks at the files.

## Main results

* `Looks.run_adapt_bind`: how a run goes on after an action that only looks.
* `looks_inputFile`, `looks_ofFile`, `looks_select`: looking for an input and reading a program or a
  dictionary.
-/

namespace ScriptChart.Files

open ScriptChart.Phrase ScriptChart.Project

section

variable {φ ε ε' α β γ : Type}

/-- What an action gives on the files in a state. -/
def onDisk (disk : φ) (action : ExceptT ε (StateM (World φ)) α) : Except ε α :=
  (action.run (World.start disk)).1

/-- An action only looks at the files. -/
def Looks (action : ExceptT ε (StateM (World φ)) α) : Prop :=
  ∀ world, action.run world = (onDisk world.disk action, world)

/-- One action after another one, which can fail. -/
theorem run_bind (action : ExceptT ε (StateM (World φ)) α)
    (next : α → ExceptT ε (StateM (World φ)) β) (world : World φ) :
    (action >>= next).run world =
      match action.run world with
      | (.ok value, later) => (next value).run later
      | (.error fault, later) => (.error fault, later) := by
  rw [ExceptT.run_bind]
  change (match (action.run world).1 with
    | .ok value => (next value).run
    | .error fault => pure (.error fault)) (action.run world).2 = _
  rcases action.run world with ⟨_ | _, later⟩ <;> rfl

/-- One action after another one, which cannot fail. -/
theorem run_liftM_bind (ask : StateM (World φ) γ) (next : γ → ExceptT ε (StateM (World φ)) α)
    (world : World φ) :
    ((liftM ask : ExceptT ε (StateM (World φ)) γ) >>= next).run world =
      (next (ask world).1).run (ask world).2 := by
  rw [run_bind]
  rfl

/-- An outcome that is not a fault. -/
theorem eq_ok_of_toOption_eq_some {outcome : Except ε α} {value : α}
    (given : outcome.toOption = some value) : outcome = .ok value := by
  cases outcome with
  | ok other => exact congrArg Except.ok (Option.some.inj given)
  | error fault => cases given

/-- What follows an action that only looks goes on with what was seen. -/
theorem Looks.run_adapt_bind {action : ExceptT ε (StateM (World φ)) α} (looks : Looks action)
    (wrap : ε → ε') (next : α → ExceptT ε' (StateM (World φ)) β) (world : World φ) :
    (action.adapt wrap >>= next).run world =
      match onDisk world.disk action with
      | .ok value => (next value).run world
      | .error fault => (.error (wrap fault), world) := by
  have adapted : (action.adapt wrap).run world =
      ((action.run world).1.mapError wrap, (action.run world).2) := rfl
  rw [run_bind, adapted, looks world]
  cases onDisk world.disk action <;> rfl

theorem Looks.onDisk_adapt_bind {action : ExceptT ε (StateM (World φ)) α} (looks : Looks action)
    (wrap : ε → ε') (next : α → ExceptT ε' (StateM (World φ)) β) (disk : φ) :
    onDisk disk (action.adapt wrap >>= next) =
      match onDisk disk action with
      | .ok value => onDisk disk (next value)
      | .error fault => .error (wrap fault) := by
  rw [onDisk, looks.run_adapt_bind]
  change (match onDisk disk action with
    | .ok value => (next value).run (World.start disk)
    | .error fault => (.error (wrap fault), World.start disk)).1 = _
  cases onDisk disk action <;> rfl

theorem onDisk_pure (disk : φ) (value : α) :
    onDisk disk (pure value : ExceptT ε (StateM (World φ)) α) = .ok value := rfl

theorem onDisk_throw (disk : φ) (fault : ε) :
    onDisk disk (throw fault : ExceptT ε (StateM (World φ)) α) = .error fault := rfl

theorem onDisk_liftM (disk : φ) (outcome : Except ε α) :
    onDisk disk (liftM outcome : ExceptT ε (StateM (World φ)) α) = outcome := by
  cases outcome <;> rfl

theorem looks_pure (value : α) : Looks (pure value : ExceptT ε (StateM (World φ)) α) :=
  fun _ => rfl

theorem looks_throw (fault : ε) : Looks (throw fault : ExceptT ε (StateM (World φ)) α) :=
  fun _ => rfl

theorem looks_liftM (value : Except ε α) :
    Looks (liftM value : ExceptT ε (StateM (World φ)) α) := by
  cases value <;> exact fun _ => rfl

/-- What follows a question about the files goes on with the answer. -/
theorem onDisk_ask_bind {ask : StateM (World φ) γ} (seen : φ → γ)
    (asks : ∀ world, ask world = (seen world.disk, world))
    (next : γ → ExceptT ε (StateM (World φ)) α) (disk : φ) :
    onDisk disk ((liftM ask : ExceptT ε (StateM (World φ)) γ) >>= next) =
      onDisk disk (next (seen disk)) := by
  rw [onDisk, run_liftM_bind, asks]
  rfl

theorem onDisk_isFile_bind (system : FileSystem φ) (path : String)
    (next : Bool → ExceptT ε (StateM (World φ)) α) (disk : φ) :
    onDisk disk
        ((liftM ((Host.ofSystem system).isFile path) : ExceptT ε (StateM (World φ)) _) >>= next) =
      onDisk disk (next (system.isFile disk path)) :=
  onDisk_ask_bind (fun disk => system.isFile disk path) (fun _ => rfl) next disk

theorem onDisk_look?_bind (system : FileSystem φ) (path : String)
    (next : Option Entry → ExceptT ε (StateM (World φ)) α) (disk : φ) :
    onDisk disk
        ((liftM ((Host.ofSystem system).look? path) : ExceptT ε (StateM (World φ)) _) >>= next) =
      onDisk disk (next (system.look? disk path)) :=
  onDisk_ask_bind (fun disk => system.look? disk path) (fun _ => rfl) next disk

theorem onDisk_absolute?_bind (system : FileSystem φ) (path : String)
    (next : Option String → ExceptT ε (StateM (World φ)) α) (disk : φ) :
    onDisk disk
        ((liftM ((Host.ofSystem system).absolute? path) : ExceptT ε (StateM (World φ)) _) >>=
          next) =
      onDisk disk (next (system.absolute? disk path)) :=
  onDisk_ask_bind (fun disk => system.absolute? disk path) (fun _ => rfl) next disk

/-- A question about the files, before something that only looks. -/
theorem looks_ask {ask : StateM (World φ) γ} (seen : φ → γ)
    (asks : ∀ world, ask world = (seen world.disk, world))
    {next : γ → ExceptT ε (StateM (World φ)) α} (later : ∀ value, Looks (next value)) :
    Looks ((liftM ask : ExceptT ε (StateM (World φ)) γ) >>= next) := by
  intro world
  rw [onDisk, run_liftM_bind, run_liftM_bind, asks, asks]
  exact later _ world

end

variable {φ : Type} (system : FileSystem φ)

theorem looks_inputFile (path : String) : Looks ((Host.ofSystem system).inputFile path) := by
  unfold Host.inputFile
  refine looks_ask (fun disk => system.isFile disk path) (fun _ => rfl) fun found => ?_
  cases found with
  | true =>
    refine looks_ask (fun disk => system.absolute? disk path) (fun _ => rfl) fun place => ?_
    cases place with
    | some place => exact looks_pure place
    | none => exact looks_throw _
  | false => exact looks_throw _

theorem looks_ofFile (path : String) : Looks (Program.ofFile (Host.ofSystem system) path) := by
  unfold Program.ofFile
  refine looks_ask (fun disk => system.look? disk path) (fun _ => rfl) fun entry => ?_
  split
  · exact looks_liftM _
  · exact looks_throw _

theorem looks_ofDictionaryFile (path : String) :
    Looks (Dictionary.ofFile (Host.ofSystem system) path) := by
  unfold Dictionary.ofFile
  refine looks_ask (fun disk => system.look? disk path) (fun _ => rfl) fun entry => ?_
  split
  · split
    · split
      · exact looks_pure _
      · exact looks_throw _
    · exact looks_throw _
  · exact looks_throw _

theorem looks_select (path : Option String) (locale : LocaleName) :
    Looks (Dictionary.select (Host.ofSystem system) path locale) := by
  cases path with
  | some path => exact looks_ofDictionaryFile system path
  | none => exact looks_pure _

end ScriptChart.Files
