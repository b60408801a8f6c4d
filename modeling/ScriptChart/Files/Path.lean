import ScriptChart.Text.Search

/-!
# Paths

A path is a text. The pieces between its slashes say where to go: an empty piece or a single dot
stays where it is, two dots go up, and any other piece is a name. The file that a path names is the
last of these, and its name splits at its last dot into a stem and an extension. A text that is
empty or too long cannot be followed.

## Main definitions

* `isPath`: whether a text can be followed.
* `pieces`, `names`: the pieces of a path, and those of them that go somewhere.
* `fileName?`, `stem`, `extension?`: the file that a path names.
* `directory`: the path of the directory that the file lies in.

## Main results

* `slash_not_mem_of_mem_piecesOf`, `piecesOf_intercalate`: no piece holds a slash, and texts without
  a slash are the pieces of what they are with slashes between them.
-/

namespace ScriptChart.Files

/-- The pieces of a text between the slashes in it. -/
def piecesOf : List Char → List (List Char)
  | [] => [[]]
  | c :: rest =>
    if c = '/' then [] :: piecesOf rest
    else
      match piecesOf rest with
      | piece :: others => (c :: piece) :: others
      | [] => [[c]]

/-- The pieces of a path between the slashes in it. -/
def pieces (path : String) : List String := (piecesOf path.toList).map String.ofList

/-- The largest number of bytes of a path that can be followed. -/
def longestPath : Nat := 4095

/-- Whether a text can be followed as a path. -/
def isPath (path : String) : Bool := path ≠ "" && path.utf8ByteSize ≤ longestPath

/-- Whether a path starts from the root. -/
def isRooted (path : String) : Bool := Text.beginsWith "/" path

/-- Whether a piece of a path stays where it is. -/
def staysPut (piece : String) : Bool := piece = "" || piece = "."

/-- The pieces of a path that go up or name something. -/
def names (path : String) : List String := (pieces path).filter fun piece => !staysPut piece

/-- The name of the file that a path leads to. A path that ends by going up has none. -/
def fileName? (path : String) : Option String :=
  match (names path).getLast? with
  | some ".." => none
  | last => last

/-- The stem and the extension of a file name. A dot in front of the name begins no extension. -/
def splitName (name : String) : String × Option String :=
  match Text.cutAtFirst? '.' name.toList.reverse with
  | none => (name, none)
  -- nothing stands in front of the dot
  | some (_, []) => (name, none)
  | some (extension, stem) =>
    (String.ofList stem.reverse, some (String.ofList extension.reverse))

/-- The name of the file that a path leads to, without its extension; empty if there is none. -/
def stem (path : String) : String :=
  match fileName? path with
  | some name => (splitName name).1
  | none => ""

/-- The extension of the file that a path leads to. -/
def extension? (path : String) : Option String :=
  (fileName? path).bind fun name => (splitName name).2

/-- Whether a file has an extension, in capital or small letters. -/
def hasExtension (extension path : String) : Bool :=
  match extension? path with
  | some found => found.toList.map Char.toLower == extension.toList.map Char.toLower
  | none => false

/-- The path of the directory that holds what a path leads to: the path up to its last name. It is
empty for the working directory. -/
def directory (path : String) : String :=
  let named := (pieces path).reverse.dropWhile staysPut
  match named.tail.dropWhile staysPut with
  | [] => if isRooted path then "/" else ""
  | last :: before => "/".intercalate (last :: before).reverse

theorem piecesOf_ne_nil (text : List Char) : piecesOf text ≠ [] := by
  induction text with
  | nil => simp [piecesOf]
  | cons c rest ih =>
    by_cases slash : c = '/'
    · simp [piecesOf, slash]
    · obtain ⟨piece, others, found⟩ := List.exists_cons_of_ne_nil ih
      simp [piecesOf, slash, found]

theorem slash_not_mem_of_mem_piecesOf {text piece : List Char} (between : piece ∈ piecesOf text) :
    '/' ∉ piece := by
  induction text generalizing piece with
  | nil =>
    have empty : piece = [] := by simpa [piecesOf] using between
    simp [empty]
  | cons c rest ih =>
    by_cases slash : c = '/'
    · rcases (by simpa [piecesOf, slash] using between : piece = [] ∨ piece ∈ piecesOf rest)
        with empty | later
      · simp [empty]
      · exact ih later
    · obtain ⟨first, others, found⟩ := List.exists_cons_of_ne_nil (piecesOf_ne_nil rest)
      have choice : piece = c :: first ∨ piece ∈ others := by
        simpa [piecesOf, slash, found] using between
      rcases choice with here | later
      · have clean : '/' ∉ first := ih (by simp [found])
        simp [here, clean, Ne.symm slash]
      · exact ih (by simp [found, later])

theorem piecesOf_of_slash_not_mem {text : List Char} (whole : '/' ∉ text) :
    piecesOf text = [text] := by
  induction text with
  | nil => rfl
  | cons c rest ih =>
    rw [List.mem_cons, not_or] at whole
    simp [piecesOf, ih whole.2, Ne.symm whole.1]

theorem piecesOf_append_slash {part : List Char} (whole : '/' ∉ part) (rest : List Char) :
    piecesOf (part ++ '/' :: rest) = part :: piecesOf rest := by
  induction part with
  | nil => simp [piecesOf]
  | cons c more ih =>
    rw [List.mem_cons, not_or] at whole
    simp [piecesOf, ih whole.2, Ne.symm whole.1]

theorem piecesOf_intercalate {parts : List (List Char)} (present : parts ≠ [])
    (whole : ∀ part ∈ parts, '/' ∉ part) : piecesOf (['/'].intercalate parts) = parts := by
  induction parts with
  | nil => contradiction
  | cons part rest ih =>
    rw [List.forall_mem_cons] at whole
    cases rest with
    | nil => simpa using piecesOf_of_slash_not_mem whole.1
    | cons second more =>
      rw [List.intercalate_cons_cons, List.append_assoc, List.singleton_append,
        piecesOf_append_slash whole.1, ih (List.cons_ne_nil _ _) whole.2]

end ScriptChart.Files
