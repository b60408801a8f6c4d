import ScriptChart.Files.Host

/-!
# What a disk answers

Whatever a disk tells about a path, or changes at one, is settled by the places on the way that the
pieces of the path go. The way itself does not depend on what stands anywhere. A path leads to the
end of it if directories stand at all places before. The path from the root to that place leads
there again.

## Main definitions

* `Place.next`, `Place.way`, `Disk.way`: the places that a path goes through.
* `Disk.Stands`: a place can be reached by names.
* `Disk.Grows`: directories were made on the way.
* `Disk.Answers`: what the files of a disk answer to the questions and commands about a path.

## Main results

* `Disk.place?_eq_some_iff`, `Disk.absolute?_eq_some_iff`: where a path leads.
* `Disk.place?_of_absolute?`: the path from the root leads where the path leads.
* `Disk.makeDirectories_fst_iff`, `Disk.grows_makeDirectories`: when directories are made, and what
  else changes.
* `Disk.answers`: all of it, for any disk and any path.
-/

namespace ScriptChart.Files

/-! ### Ways -/

/-- Where a piece of a path leads from a place, whatever stands there. -/
def Place.next (place : Place) (piece : String) : Place :=
  if staysPut piece then place else if piece = ".." then place.tail else piece :: place

/-- The places that the pieces of a path go through from a place, the first and the last one with
them. -/
def Place.way (place : Place) : List String → List Place
  | [] => [place]
  | piece :: rest => place :: Place.way (place.next piece) rest

theorem Place.way_eq_cons (place : Place) (pieces : List String) :
    place.way pieces = place :: (place.way pieces).tail := by
  cases pieces <;> rfl

theorem Place.way_ne_nil (place : Place) (pieces : List String) : place.way pieces ≠ [] := by
  rw [Place.way_eq_cons]
  exact List.cons_ne_nil _ _

@[simp]
theorem Place.dropLast_way_cons (place : Place) (piece : String) (rest : List String) :
    (place.way (piece :: rest)).dropLast = place :: ((place.next piece).way rest).dropLast :=
  List.dropLast_cons_of_ne_nil (Place.way_ne_nil _ rest)

@[simp]
theorem Place.getLast?_way_cons (place : Place) (piece : String) (rest : List String) :
    (place.way (piece :: rest)).getLast? = ((place.next piece).way rest).getLast? :=
  List.getLast?_cons_of_ne_nil (Place.way_ne_nil _ rest)

namespace Disk

variable {disk later : Disk} {place : Place} {path : String}

/-- The places that a path goes through. -/
def way (disk : Disk) (path : String) : List Place := (disk.start path).way (pieces path)

theorem isDirectory_iff :
    disk.isDirectory place = true ↔ disk.occupant? place = some .directory := by
  unfold isDirectory
  split <;> simp_all

theorem step?_eq_some_iff {piece : String} {next : Place} :
    disk.step? place piece = some next ↔
      disk.isDirectory place = true ∧ isName piece = true ∧ place.next piece = next := by
  unfold step? Place.next
  by_cases directory : disk.isDirectory place = true
  · by_cases stays : staysPut piece = true
    · have named : isName piece = true := by
        rcases (by simpa [staysPut] using stays : piece = "" ∨ piece = ".") with rfl | rfl <;>
          decide
      simp [directory, stays, named]
    · by_cases dots : piece = ".."
      · have named : isName ".." = true := by decide
        have moves : staysPut ".." = false := by decide
        simp [directory, dots, named, moves]
      · simp [directory, stays, dots]
  · simp [directory]

theorem foldlM_step?_eq_some_iff {pieces : List String} {last : Place} :
    pieces.foldlM disk.step? place = some last ↔
      (∀ piece ∈ pieces, isName piece = true) ∧
        (∀ on ∈ (place.way pieces).dropLast, disk.isDirectory on = true) ∧
          (place.way pieces).getLast? = some last := by
  induction pieces generalizing place with
  | nil => simp [Place.way]
  | cons piece rest ih =>
    simp only [List.foldlM_cons, Option.bind_eq_bind, Option.bind_eq_some_iff, step?_eq_some_iff]
    simp only [Place.dropLast_way_cons, Place.getLast?_way_cons, List.forall_mem_cons, ih]
    constructor
    · rintro ⟨next, ⟨directory, named, rfl⟩, names, directories, ends⟩
      exact ⟨⟨named, names⟩, ⟨directory, directories⟩, ends⟩
    · rintro ⟨⟨named, names⟩, ⟨directory, directories⟩, ends⟩
      exact ⟨_, ⟨directory, named, rfl⟩, names, directories, ends⟩

/-- A path leads to the last place on its way, if directories stand at all the others. -/
theorem place?_eq_some_iff :
    disk.place? path = some place ↔
      isPath path = true ∧ (∀ piece ∈ pieces path, isName piece = true) ∧
        (∀ on ∈ (disk.way path).dropLast, disk.isDirectory on = true) ∧
          (disk.way path).getLast? = some place := by
  unfold place?
  split
  · rename_i followable
    simp [followable, foldlM_step?_eq_some_iff, way]
  · rename_i followable
    simp [followable]

theorem foldlM_stepWithin?_eq_some_iff {pieces : List String} {last : Place} :
    pieces.foldlM disk.stepWithin? place = some last ↔
      pieces.foldlM disk.step? place = some last ∧
        ∀ on ∈ (place.way pieces).tail, isPath on.path = true := by
  induction pieces generalizing place with
  | nil => simp [Place.way]
  | cons piece rest ih =>
    have begins := Place.way_eq_cons (place.next piece) rest
    simp only [List.foldlM_cons, Option.bind_eq_bind, Option.bind_eq_some_iff, stepWithin?,
      Option.filter_eq_some_iff, step?_eq_some_iff]
    simp only [ih, Place.way, List.tail_cons]
    constructor
    · rintro ⟨next, ⟨⟨directory, named, rfl⟩, within⟩, leads, others⟩
      refine ⟨⟨_, ⟨directory, named, rfl⟩, leads⟩, ?_⟩
      rw [begins, List.forall_mem_cons]
      exact ⟨within, others⟩
    · rintro ⟨⟨next, ⟨directory, named, rfl⟩, leads⟩, others⟩
      rw [begins, List.forall_mem_cons] at others
      exact ⟨_, ⟨⟨directory, named, rfl⟩, others.1⟩, leads, others.2⟩

/-- The path from the root is that of the place where a path leads, if something stands there and
the paths of all places on the way can be followed. -/
theorem absolute?_eq_some_iff {whole : String} :
    disk.absolute? path = some whole ↔
      (∃ place entry, disk.place? path = some place ∧ disk.occupant? place = some entry ∧
        place.path = whole) ∧ ∀ on ∈ (disk.way path).tail, isPath on.path = true := by
  unfold absolute? place?
  by_cases followable : isPath path = true
  · have allowed : (guard (isPath path) : Option Unit) = some () := if_pos followable
    rw [allowed, if_pos followable]
    simp only [Option.pure_def, Option.bind_eq_bind, Option.bind_some, Option.bind_eq_some_iff,
      foldlM_stepWithin?_eq_some_iff, Option.some.injEq, way]
    constructor
    · rintro ⟨place, ⟨leads, within⟩, entry, stands, same⟩
      exact ⟨⟨place, entry, leads, stands, same⟩, within⟩
    · rintro ⟨⟨place, entry, leads, stands, same⟩, within⟩
      exact ⟨place, ⟨leads, within⟩, entry, stands, same⟩
  · have refused : (guard (isPath path) : Option Unit) = none := if_neg followable
    rw [refused, if_neg followable]
    simp

theorem look?_eq_some_iff {entry : Entry} :
    disk.look? path = some entry ↔
      ∃ place, disk.place? path = some place ∧ disk.occupant? place = some entry := by
  rw [look?, Option.bind_eq_some_iff]

theorem isFile_iff :
    disk.isFile path = true ↔ ∃ bytes, disk.look? path = some (.file bytes) := by
  unfold isFile
  split <;> simp_all

/-! ### The path from the root -/

/-- A place can be reached by the names on the way to it: each is a name, none of them stays or goes
up, and there is a directory before each. -/
inductive Stands (disk : Disk) : Place → Prop
  | root : Stands disk []
  | child {parent : Place} {name : String} (within : Stands disk parent)
      (directory : disk.isDirectory parent = true) (named : isName name = true)
      (moves : staysPut name = false) (descends : name ≠ "..") (whole : '/' ∉ name.toList) :
      Stands disk (name :: parent)

theorem stands_next {piece : String} (stands : disk.Stands place)
    (directory : disk.isDirectory place = true) (named : isName piece = true)
    (whole : '/' ∉ piece.toList) : disk.Stands (place.next piece) := by
  unfold Place.next
  by_cases stays : staysPut piece = true
  · simpa [stays] using stands
  · by_cases dots : piece = ".."
    · subst dots
      have up : disk.Stands place.tail := by
        cases stands with
        | root => exact .root
        | child within => exact within
      simpa [stays] using up
    · simpa [stays, dots] using stands.child directory named (by simpa using stays) dots whole

theorem slash_not_mem_of_mem_pieces {piece : String} (between : piece ∈ pieces path) :
    '/' ∉ piece.toList := by
  obtain ⟨text, among, rfl⟩ := List.mem_map.mp between
  simpa using slash_not_mem_of_mem_piecesOf among

theorem stands_of_foldlM_step? {pieces : List String} {last : Place} (stands : disk.Stands place)
    (whole : ∀ piece ∈ pieces, '/' ∉ piece.toList)
    (leads : pieces.foldlM disk.step? place = some last) : disk.Stands last := by
  induction pieces generalizing place with
  | nil => simpa [← Option.some.inj leads] using stands
  | cons piece rest ih =>
    simp only [List.foldlM_cons, Option.bind_eq_bind, Option.bind_eq_some_iff,
      step?_eq_some_iff] at leads
    obtain ⟨_, ⟨directory, named, rfl⟩, leads⟩ := leads
    rw [List.forall_mem_cons] at whole
    exact ih (stands_next stands directory named whole.1) whole.2 leads

/-- Where a path leads can be reached by names, if the directory can that a program works in. -/
theorem stands_of_place? (home : disk.Stands disk.home) (leads : disk.place? path = some place) :
    disk.Stands place := by
  have start : disk.Stands (disk.start path) := by
    unfold Disk.start
    split
    · exact .root
    · exact home
  unfold place? at leads
  split at leads
  · exact stands_of_foldlM_step? start (fun _ between => slash_not_mem_of_mem_pieces between) leads
  · contradiction

/-- A place that can be reached by names is reached along them from the root. -/
theorem foldlM_step?_reverse (stands : disk.Stands place) :
    place.reverse.foldlM disk.step? [] = some place := by
  induction stands with
  | root => rfl
  | @child parent name within directory named moves descends whole ih =>
    have next : Place.next parent name = name :: parent := by simp [Place.next, moves, descends]
    have step : disk.step? parent name = some (name :: parent) :=
      step?_eq_some_iff.mpr ⟨directory, named, next⟩
    rw [List.reverse_cons, List.foldlM_append, ih]
    simpa using step

theorem slash_not_mem_of_stands (stands : disk.Stands place) :
    ∀ name ∈ place, '/' ∉ name.toList := by
  induction stands with
  | root => simp
  | child _ _ _ _ _ whole ih => exact List.forall_mem_cons.mpr ⟨whole, ih⟩

theorem toList_path (place : Place) :
    place.path.toList = '/' :: ['/'].intercalate (place.reverse.map String.toList) := by
  simp [Place.path, String.toList_intercalate]

/-- The path from the root to a place leads there. -/
theorem place?_path (stands : disk.Stands place) (followable : isPath place.path = true) :
    disk.place? place.path = some place := by
  have rooted : disk.start place.path = [] := by
    simp [start, isRooted, Text.beginsWith, toList_path]
  have stays : disk.step? [] "" = some [] := rfl
  rw [place?, if_pos followable, rooted]
  by_cases below : place = []
  · subst below
    rfl
  · have whole : ∀ part ∈ place.reverse.map String.toList, '/' ∉ part := by
      simpa using slash_not_mem_of_stands stands
    have cut : pieces place.path = "" :: place.reverse := by
      rw [pieces, toList_path, ← List.nil_append ('/' :: _), piecesOf_append_slash (by simp),
        piecesOf_intercalate (by simpa using below) whole]
      simp
    rw [cut, List.foldlM_cons, stays]
    exact foldlM_step?_reverse stands

/-- The place where a path leads comes after a piece of the path. -/
theorem mem_tail_way (leads : disk.place? path = some place) : place ∈ (disk.way path).tail := by
  obtain ⟨-, -, -, ends⟩ := place?_eq_some_iff.mp leads
  -- even an empty path has a piece, which stays where it is
  have present : pieces path ≠ [] := by simpa [pieces] using piecesOf_ne_nil path.toList
  obtain ⟨piece, rest, cut⟩ := List.exists_cons_of_ne_nil present
  rw [way, cut] at ends ⊢
  rw [Place.getLast?_way_cons] at ends
  exact List.mem_of_getLast? ends

/-- The path from the root leads where the path leads, if the directory that a program works in can
be reached by names. -/
theorem place?_of_absolute? {whole : String} (home : disk.Stands disk.home)
    (found : disk.absolute? path = some whole) : disk.place? whole = disk.place? path := by
  obtain ⟨⟨place, entry, leads, -, rfl⟩, within⟩ := absolute?_eq_some_iff.mp found
  rw [leads]
  exact place?_path (stands_of_place? home leads) (within place (mem_tail_way leads))

/-! ### Making directories -/

/-- A disk is another one with directories made at some of the given places, where nothing stood. -/
structure Grows (disk : Disk) (places : List Place) (later : Disk) : Prop where
  home : later.home = disk.home
  occupant : ∀ place, later.occupant? place = disk.occupant? place ∨
    place ∈ places ∧ disk.occupant? place = none ∧ later.occupant? place = some .directory

theorem Grows.refl (disk : Disk) (places : List Place) : disk.Grows places disk :=
  ⟨rfl, fun _ => .inl rfl⟩

theorem Grows.trans {places : List Place} {middle : Disk} (first : disk.Grows places middle)
    (second : middle.Grows places later) : disk.Grows places later where
  home := second.home.trans first.home
  occupant place := by
    rcases first.occupant place with before | ⟨among, free, made⟩
    · rw [← before]
      exact second.occupant place
    · rcases second.occupant place with kept | ⟨-, none, -⟩
      · exact .inr ⟨among, free, kept.trans made⟩
      · simp [made] at none

theorem Grows.mono {fewer more : List Place} (grows : disk.Grows fewer later)
    (within : fewer ⊆ more) : disk.Grows more later :=
  ⟨grows.home, fun place => (grows.occupant place).imp_right fun ⟨among, made⟩ =>
    ⟨within among, made⟩⟩

theorem Grows.isDirectory {places : List Place} (grows : disk.Grows places later)
    (directory : disk.isDirectory place = true) : later.isDirectory place = true := by
  rw [isDirectory_iff] at directory ⊢
  rcases grows.occupant place with same | ⟨-, -, made⟩
  · rw [same, directory]
  · exact made

theorem Grows.file_iff {places : List Place} (grows : disk.Grows places later)
    (bytes : List UInt8) :
    later.occupant? place = some (.file bytes) ↔ disk.occupant? place = some (.file bytes) := by
  rcases grows.occupant place with same | ⟨-, free, made⟩
  · rw [same]
  · simp [free, made]

theorem grows_makeDirectory (disk : Disk) (place : Place) :
    disk.Grows [place] (disk.makeDirectory place) := by
  unfold makeDirectory
  cases taken : disk.occupant? place with
  | some entry => exact .refl disk _
  | none =>
    have below : place ≠ [] := by
      rintro rfl
      simp [occupant?] at taken
    refine ⟨rfl, fun other => ?_⟩
    by_cases same : other = place
    · subst same
      exact .inr ⟨by simp, taken, occupant?_put_self disk below _⟩
    · exact .inl (occupant?_put_of_ne disk same _)

/-- A directory stands at a place after it was made there, unless a file stands there. -/
theorem isDirectory_makeDirectory (disk : Disk) (place : Place) :
    (disk.makeDirectory place).isDirectory place = true ↔
      ∀ bytes, disk.occupant? place ≠ some (.file bytes) := by
  rw [isDirectory_iff]
  unfold makeDirectory
  cases taken : disk.occupant? place with
  | some entry => cases entry <;> simp [taken]
  | none =>
    have below : place ≠ [] := by
      rintro rfl
      simp [occupant?] at taken
    simp [occupant?_put_self disk below]

theorem grows_makeAlong (disk : Disk) (place : Place) (pieces : List String) :
    disk.Grows (place.way pieces) (disk.makeAlong place pieces).2 := by
  induction pieces generalizing disk place with
  | nil => exact .refl disk _
  | cons piece rest ih =>
    unfold makeAlong
    cases step : disk.step? place piece with
    | none => exact .refl disk _
    | some next =>
      obtain ⟨-, -, rfl⟩ := step?_eq_some_iff.mp step
      have here : [place.next piece] ⊆ place.way (piece :: rest) := by
        rw [Place.way, Place.way_eq_cons]
        simp
      exact ((grows_makeDirectory disk _).mono here).trans
        ((ih _ _).mono (List.subset_cons_self _ _))

/-- Directories are made along a way if no file stands on it. -/
theorem makeAlong_fst_iff (disk : Disk) (place : Place) (pieces : List String) :
    (disk.makeAlong place pieces).1 = true ↔
      disk.isDirectory place = true ∧ (∀ piece ∈ pieces, isName piece = true) ∧
        ∀ on ∈ (place.way pieces).tail, ∀ bytes, disk.occupant? on ≠ some (.file bytes) := by
  induction pieces generalizing disk place with
  | nil => simp [makeAlong, Place.way]
  | cons piece rest ih =>
    unfold makeAlong
    cases step : disk.step? place piece with
    | none =>
      have stuck : ¬(disk.isDirectory place = true ∧ isName piece = true) := by
        rintro ⟨directory, named⟩
        simp [step?_eq_some_iff.mpr ⟨directory, named, rfl⟩] at step
      simp only [Bool.false_eq_true, List.forall_mem_cons, false_iff]
      exact fun ⟨directory, ⟨named, _⟩, _⟩ => stuck ⟨directory, named⟩
    | some next =>
      obtain ⟨directory, named, rfl⟩ := step?_eq_some_iff.mp step
      have begins := Place.way_eq_cons (place.next piece) rest
      -- the directory that was just made hides no file further on
      simp only [ih, isDirectory_makeDirectory, ne_eq, (grows_makeDirectory disk _).file_iff,
        directory, named, List.forall_mem_cons, Place.way, List.tail_cons, true_and]
      rw [begins, List.forall_mem_cons]
      exact and_left_comm

theorem isDirectory_of_makeAlong {pieces : List String}
    (made : (disk.makeAlong place pieces).1 = true) :
    ∀ on ∈ place.way pieces, (disk.makeAlong place pieces).2.isDirectory on = true := by
  induction pieces generalizing disk place with
  | nil => simpa [makeAlong, Place.way] using made
  | cons piece rest ih =>
    -- a directory that stands stays one while the others are made
    have begins : disk.isDirectory place = true := ((makeAlong_fst_iff _ _ _).mp made).1
    have grows := grows_makeAlong disk place (piece :: rest)
    rw [Place.way, List.forall_mem_cons]
    refine ⟨grows.isDirectory begins, ?_⟩
    unfold makeAlong at made ⊢
    cases step : disk.step? place piece with
    | none => simp [step] at made
    | some next =>
      obtain ⟨-, -, rfl⟩ := step?_eq_some_iff.mp step
      simp only [step] at made ⊢
      exact ih made

/-- The directories on the way of a path are made if the path can be followed, it begins at a
directory, and no file stands on the way. -/
theorem makeDirectories_fst_iff :
    (disk.makeDirectories path).1 = true ↔
      isPath path = true ∧ disk.isDirectory (disk.start path) = true ∧
        (∀ piece ∈ pieces path, isName piece = true) ∧
          ∀ on ∈ (disk.way path).tail, ∀ bytes, disk.occupant? on ≠ some (.file bytes) := by
  unfold makeDirectories
  split
  · rename_i followable
    simp [followable, makeAlong_fst_iff, way]
  · rename_i followable
    simp [followable]

/-- Making directories adds directories on the way and changes nothing else. -/
theorem grows_makeDirectories (disk : Disk) (path : String) :
    disk.Grows (disk.way path) (disk.makeDirectories path).2 := by
  unfold makeDirectories
  split
  · exact grows_makeAlong disk _ _
  · exact .refl disk _

theorem isDirectory_of_makeDirectories (made : (disk.makeDirectories path).1 = true) :
    ∀ on ∈ disk.way path, (disk.makeDirectories path).2.isDirectory on = true := by
  unfold makeDirectories at made ⊢
  split at made
  · rename_i followable
    rw [if_pos followable]
    exact isDirectory_of_makeAlong made
  · simp at made

/-! ### Writing files -/

/-- A file is written where the path leads, unless a directory stands there. -/
theorem write?_eq_some_iff {bytes : List UInt8} :
    disk.write? path bytes = some later ↔
      ∃ place, disk.place? path = some place ∧ disk.isDirectory place = false ∧
        disk.put place (.file bytes) = later := by
  unfold write?
  simp only [Option.bind_eq_bind, Option.bind_eq_some_iff]
  refine exists_congr fun place => and_congr_right fun _ => ?_
  cases disk.isDirectory place <;> simp

/-! ### Answers -/

/-- What the files of a disk answer to the questions and commands about a path. -/
structure Answers (disk : Disk) (path : String) : Prop where
  /-- A path leads to the last place on its way if directories stand at all the others. -/
  leads : ∀ place, disk.place? path = some place ↔
    isPath path = true ∧ (∀ piece ∈ pieces path, isName piece = true) ∧
      (∀ on ∈ (disk.way path).dropLast, disk.isDirectory on = true) ∧
        (disk.way path).getLast? = some place
  isFile : files.isFile disk path = true ↔
    ∃ place bytes, disk.place? path = some place ∧ disk.occupant? place = some (.file bytes)
  look? : ∀ entry, files.look? disk path = some entry ↔
    ∃ place, disk.place? path = some place ∧ disk.occupant? place = some entry
  absolute? : ∀ whole, files.absolute? disk path = some whole ↔
    (∃ place entry, disk.place? path = some place ∧ disk.occupant? place = some entry ∧
      place.path = whole) ∧ ∀ on ∈ (disk.way path).tail, isPath on.path = true
  /-- The path from the root leads where the path leads. -/
  canonical : disk.Stands disk.home → ∀ whole, files.absolute? disk path = some whole →
    disk.place? whole = disk.place? path
  makes : (files.makeDirectories disk path).1 = true ↔
    isPath path = true ∧ disk.isDirectory (disk.start path) = true ∧
      (∀ piece ∈ pieces path, isName piece = true) ∧
        ∀ on ∈ (disk.way path).tail, ∀ bytes, disk.occupant? on ≠ some (.file bytes)
  made : (files.makeDirectories disk path).1 = true →
    ∀ on ∈ disk.way path, (files.makeDirectories disk path).2.isDirectory on = true
  /-- Even if not all directories are made, nothing else changes. -/
  grows : disk.Grows (disk.way path) (files.makeDirectories disk path).2
  writes : ∀ bytes, (files.write disk path bytes).1 = true ↔
    ∃ place, disk.place? path = some place ∧ disk.isDirectory place = false
  /-- What is written stands where the path leads, and nothing changes elsewhere. -/
  written : ∀ bytes place, (files.write disk path bytes).1 = true →
    disk.place? path = some place → ∀ other, (files.write disk path bytes).2.occupant? other =
      if other = place then some (.file bytes) else disk.occupant? other
  found : ∀ bytes, (files.write disk path bytes).1 = true →
    files.look? (files.write disk path bytes).2 path = some (.file bytes)
  refused : ∀ bytes, (files.write disk path bytes).1 = false →
    (files.write disk path bytes).2 = disk

theorem write_files_of_write? {bytes : List UInt8} (wrote : disk.write? path bytes = some later) :
    files.write disk path bytes = (true, later) := by
  simp [files, wrote]

theorem write_files_of_none {bytes : List UInt8} (refused : disk.write? path bytes = none) :
    files.write disk path bytes = (false, disk) := by
  simp [files, refused]

theorem write_files_fst_iff {bytes : List UInt8} :
    (files.write disk path bytes).1 = true ↔
      disk.write? path bytes = some (files.write disk path bytes).2 := by
  cases wrote : disk.write? path bytes with
  | some later => simp [write_files_of_write? wrote]
  | none => simp [write_files_of_none wrote]

/-- Every disk answers as the places on the way of a path settle it. -/
theorem answers (disk : Disk) (path : String) : disk.Answers path where
  leads _ := place?_eq_some_iff
  isFile := by
    change disk.isFile path = true ↔ _
    simp only [isFile_iff, look?_eq_some_iff]
    exact exists_comm
  look? _ := look?_eq_some_iff
  absolute? _ := absolute?_eq_some_iff
  canonical home _ found := place?_of_absolute? home found
  makes := makeDirectories_fst_iff
  made := isDirectory_of_makeDirectories
  grows := grows_makeDirectories disk path
  writes bytes := by
    cases wrote : disk.write? path bytes with
    | some later =>
      obtain ⟨place, leads, free, -⟩ := write?_eq_some_iff.mp wrote
      simp [write_files_of_write? wrote, leads, free]
    | none =>
      simp only [write_files_of_none wrote, Bool.false_eq_true, false_iff]
      rintro ⟨place, leads, free⟩
      simp [write?_eq_some_iff.mpr ⟨place, leads, free, rfl⟩] at wrote
  written bytes place wrote leads other := by
    obtain ⟨_, same, free, later⟩ := write?_eq_some_iff.mp (write_files_fst_iff.mp wrote)
    obtain rfl : place = _ := Option.some.inj (leads.symm.trans same)
    have below : place ≠ [] := by
      rintro rfl
      simp [isDirectory, occupant?] at free
    rw [← later]
    split
    · rename_i here
      rw [here, occupant?_put_self disk below]
    · rename_i apart
      exact occupant?_put_of_ne disk apart _
  found bytes wrote := look?_write? (write_files_fst_iff.mp wrote)
  refused bytes refused := by
    cases wrote : disk.write? path bytes with
    | some later => simp [write_files_of_write? wrote] at refused
    | none => rw [write_files_of_none wrote]

end Disk

end ScriptChart.Files
