import ScriptChart.Proofs.Files.Session
import ScriptChart.Proofs.Json.Tree

/-!
# Archives among files

An archive may stand behind other bytes, and the reading of archives finds it there. The reading of
files looks at the first two bytes only: a file that holds an archive is read as the archive if it
begins as archives do. Otherwise it is read as JSON text, and that always fails, since every archive
has a record whose signature has bytes that no JSON text has.

## Main definitions

* `packedProject`: an archive with a project of one target.
* `packedDisk`: a disk with a file that holds it, perhaps behind other bytes.

## Main results

* `infix_of_directory?`: the signature that every archive has.
* `ofJson_of_ofArchive`: an archive is no JSON text.
* `ofFile_of_ofArchiveFile`: how a file that holds an archive is read.
-/

namespace ScriptChart.Archive

variable {bytes : List UInt8}

/-- A record stands among the bytes with its signature. -/
theorem infix_of_recordAt? {signature record : List UInt8} {place size : Nat}
    (found : recordAt? bytes signature place size = some record) : signature <:+: bytes := by
  simp only [recordAt?, Option.ite_none_right_eq_some, Bool.and_eq_true,
    List.isPrefixOf_iff_prefix] at found
  exact (found.1.1.trans (List.take_prefix _ _)).isInfix.trans (List.drop_suffix _ _).isInfix

/-- An archive has the signature of the record behind its directory. -/
theorem infix_of_directory? {entries : List Entry} (found : directory? bytes = some entries) :
    endSignature <:+: bytes := by
  obtain ⟨place, -, listed⟩ := List.exists_of_findSome?_eq_some found
  obtain ⟨info, fits, -⟩ := Option.bind_eq_some_iff.mp listed
  obtain ⟨record, whole, -⟩ := Option.bind_eq_some_iff.mp fits
  exact infix_of_recordAt? whole

end ScriptChart.Archive

namespace ScriptChart.Project

open ScriptChart.Files

variable {bytes : List UInt8} {program : Program}

/-- An archive is no JSON text. -/
theorem ofJson_of_ofArchive (accepted : Program.ofArchive bytes = .ok program) :
    Program.ofJson bytes = .error .notProject := by
  have unread : Program.ofBytes? bytes = none := by
    cases parsed : Json.Tree.ofBytes? bytes with
    | none => simp only [Program.ofBytes?, parsed, Option.bind_none]
    | some tree =>
      cases listed : Archive.directory? bytes with
      | none => simp only [Program.ofArchive, listed, reduceCtorEq] at accepted
      | some entries =>
        -- the third byte of the signature is one of those that end the reading of a text
        have inside : 0x05 ∈ bytes := (Archive.infix_of_directory? listed).subset (by decide)
        exact absurd (by decide) (Json.not_isControl_of_ofBytes? parsed 0x05 inside)
  rw [Program.ofJson, unread]

theorem ofFileBytes_of_prefix {path : String} (other : hasExtension "json" path = false)
    (marked : archiveMark <+: bytes) :
    Program.ofFileBytes path bytes = Program.ofArchive bytes := by
  simp [Program.ofFileBytes, other, List.isPrefixOf_iff_prefix.mpr marked]

theorem ofFileBytes_of_not_prefix {path : String} (unmarked : ¬ archiveMark <+: bytes) :
    Program.ofFileBytes path bytes = Program.ofJson bytes := by
  simp [Program.ofFileBytes, List.isPrefixOf_iff_prefix, unmarked]

/-! ### Files on a disk -/

variable {disk : Disk} {path : String}

theorem onDisk_ofFile (found : disk.look? path = some (.file bytes)) :
    onDisk disk (Program.ofFile Host.inMemory path) = Program.ofFileBytes path bytes := by
  unfold Program.ofFile
  rw [onDisk_look?_bind, Disk.look?_files, found]
  exact onDisk_liftM disk _

/-- Where an archive is read there is a file that holds it. -/
theorem onDisk_ofArchiveFile_eq_ok_iff :
    onDisk disk (Program.ofArchiveFile Host.inMemory path) = .ok program ↔
      ∃ bytes, disk.look? path = some (.file bytes) ∧ Program.ofArchive bytes = .ok program := by
  unfold Program.ofArchiveFile
  rw [onDisk_look?_bind, Disk.look?_files]
  cases disk.look? path with
  | none => simp [onDisk_throw]
  | some entry =>
    cases entry with
    | directory => simp [onDisk_throw]
    | file bytes => simp [onDisk_liftM]

/-- How a file that holds an archive is read, unless it is named as JSON text: as the archive if it
begins as archives do, and not at all if it does not. -/
theorem ofFile_of_ofArchiveFile (other : hasExtension "json" path = false)
    (accepted : onDisk disk (Program.ofArchiveFile Host.inMemory path) = .ok program) :
    ∃ bytes, disk.look? path = some (.file bytes) ∧
      (archiveMark <+: bytes →
        onDisk disk (Program.ofFile Host.inMemory path) = .ok program) ∧
      (¬ archiveMark <+: bytes →
        onDisk disk (Program.ofFile Host.inMemory path) = .error .notProject) := by
  obtain ⟨bytes, found, unpacked⟩ := onDisk_ofArchiveFile_eq_ok_iff.mp accepted
  refine ⟨bytes, found, fun marked => ?_, fun unmarked => ?_⟩
  · rw [onDisk_ofFile found, ofFileBytes_of_prefix other marked, unpacked]
  · rw [onDisk_ofFile found, ofFileBytes_of_not_prefix unmarked, ofJson_of_ofArchive unpacked]

/-! ### An archive behind another byte -/

/-- An archive with one entry, whose data is stored as it is: a project with one target. -/
def packedProject : List UInt8 :=
  let text := "\x7b\"targets\":[\x7b\"name\":\"Cat\"\x7d]\x7d".toUTF8.toList
  let name := projectEntry.toUTF8.toList
  -- the time, the checksum, the sizes and the length of the name are in both headers
  let described : List UInt8 :=
    [0, 0, 0x21, 0, 0xB6, 0x1D, 0xC5, 0x7B, 28, 0, 0, 0, 28, 0, 0, 0, 12, 0, 0, 0]
  Archive.entrySignature ++ [20, 0, 0, 0, 0, 0] ++ described ++ name ++ text ++
    Archive.listingSignature ++ [20, 0, 20, 0, 0, 0, 0, 0] ++ described ++
    [0, 0, 0, 0, 0, 0, 0, 0, 0x80, 1, 0, 0, 0, 0] ++ name ++
    Archive.endSignature ++ [0, 0, 0, 0, 1, 0, 1, 0, 58, 0, 0, 0, 70, 0, 0, 0, 0, 0]

/-- A disk with a file that holds the archive behind some bytes. -/
def packedDisk (before : List UInt8) : Disk :=
  (Disk.empty []).put ["cat.sb3"] (.file (before ++ packedProject))

theorem look?_packedDisk (before : List UInt8) :
    (packedDisk before).look? "cat.sb3" = some (.file (before ++ packedProject)) := by
  have leads : (packedDisk before).place? "cat.sb3" = some ["cat.sb3"] := rfl
  rw [Disk.look?, leads]
  exact Disk.occupant?_put_self _ (List.cons_ne_nil _ _) _

/-- The archive is read where it stands alone and where it stands behind another byte. -/
theorem exists_ofArchiveFile_packedDisk {before : List UInt8}
    (usual : before = [] ∨ before = [0x0A]) :
    ∃ program, program.targets.map Target.name = ["Cat"] ∧
      onDisk (packedDisk before) (Program.ofArchiveFile Host.inMemory "cat.sb3") =
        .ok program := by
  have loads : (Program.ofArchive (before ++ packedProject)).toOption.map
      (fun program => program.targets.map Target.name) = some ["Cat"] := by
    obtain rfl | rfl := usual <;> decide +kernel
  obtain ⟨program, unpacked, named⟩ := Option.map_eq_some_iff.mp loads
  exact ⟨program, named, onDisk_ofArchiveFile_eq_ok_iff.mpr
    ⟨_, look?_packedDisk before, eq_ok_of_toOption_eq_some unpacked⟩⟩

/-- The archive is read from a file in which it stands alone. -/
theorem ofFile_packedDisk :
    hasExtension "json" "cat.sb3" = false ∧
      ∃ program, program.targets.map Target.name = ["Cat"] ∧
        onDisk (packedDisk []) (Program.ofArchiveFile Host.inMemory "cat.sb3") = .ok program ∧
        onDisk (packedDisk []) (Program.ofFile Host.inMemory "cat.sb3") = .ok program := by
  have other : hasExtension "json" "cat.sb3" = false := by decide +kernel
  obtain ⟨program, named, accepted⟩ := exists_ofArchiveFile_packedDisk (.inl rfl)
  obtain ⟨bytes, found, marked, -⟩ := ofFile_of_ofArchiveFile other accepted
  obtain rfl : [] ++ packedProject = bytes := by
    simpa [look?_packedDisk] using found
  exact ⟨other, program, named, accepted, marked (by decide +kernel)⟩

/-- Not every file that holds an archive is read: the archive may stand behind another byte. -/
theorem not_forall_ofFile_of_ofArchiveFile :
    ¬ ∀ (disk : Disk) (path : String) (program : Program), hasExtension "json" path = false →
      onDisk disk (Program.ofArchiveFile Host.inMemory path) = .ok program →
      onDisk disk (Program.ofFile Host.inMemory path) = .ok program := by
  intro routed
  obtain ⟨program, -, accepted⟩ := exists_ofArchiveFile_packedDisk (.inr rfl)
  have read := routed (packedDisk [0x0A]) "cat.sb3" program (by decide +kernel) accepted
  obtain ⟨bytes, found, unpacked⟩ := onDisk_ofArchiveFile_eq_ok_iff.mp accepted
  obtain rfl : [0x0A] ++ packedProject = bytes := by
    simpa [look?_packedDisk] using found
  rw [onDisk_ofFile found, ofFileBytes_of_not_prefix (by decide +kernel),
    ofJson_of_ofArchive unpacked] at read
  cases read

end ScriptChart.Project
