import ScriptChart.Diagram.Statement
import ScriptChart.Proofs.Diagram.Label

/-!
# Reading diagrams back

A diagram whose ids are made of letters, digits and underscores can be read back: its text has a
line for each statement, a line begins with an id that ends before the first other character, what
follows the id tells the kind of the statement, and a label ends at the first delimiter, which
cannot stand in a label itself. So no label can add a statement, end one or turn it into another.

## Main definitions

* `IsId`: what may be the id of a node.
* `Statement.ids`, `Statement.sanitized`: the ids of a statement, and the statement with its label
  as it is written.
* `readBody?`, `read?`: a statement and a diagram read from their text.

## Main results

* `splitOn_render`: the lines of a diagram.
* `read?_render`: a diagram is read back as it was written.
* `render_inj`: when two diagrams have the same text.
-/

namespace ScriptChart.Diagram

/-- Whether a character may stand in an id. -/
def isIdChar (c : Char) : Bool := c.isAlphanum || c == '_'

/-- Whether a text may be an id: letters, digits and underscores, and at least one of them. -/
def IsId (id : String) : Prop := id ≠ "" ∧ ∀ c ∈ id.toList, isIdChar c = true

instance (id : String) : Decidable (IsId id) :=
  decidable_of_iff (id ≠ "" ∧ id.toList.all isIdChar = true)
    (and_congr_right fun _ => List.all_eq_true)

namespace Statement

/-- The ids of a statement. -/
def ids : Statement → List String
  | .node id _ _ => [id]
  | .edge source destination => [source, destination]
  | .labelledEdge source destination _ => [source, destination]
  | .edgeToNode source destination _ _ => [source, destination]

/-- The statement with its label as it is written. -/
def sanitized : Statement → Statement
  | .node id shape label => .node id shape (sanitize label)
  | .edge source destination => .edge source destination
  | .labelledEdge source destination label => .labelledEdge source destination (sanitize label)
  | .edgeToNode source destination shape label =>
    .edgeToNode source destination shape (sanitize label)

end Statement

/-! ### Reading -/

/-- Whether a character is written as it is in a label. -/
def isPlain (c : Char) : Bool := !isMetachar c

/-- Reads what stands after the opening delimiter of a shape. -/
def readLabel? (shape : Shape) (text : List Char) : Option (Shape × String) :=
  if text.dropWhile isPlain = shape.delimiters.2.toList then
    some (shape, String.ofList (text.takeWhile isPlain))
  else none

/-- Reads a label between the delimiters of its shape. -/
def readShape? : List Char → Option (Shape × String)
  | '(' :: '[' :: rest => readLabel? .stadium rest
  | '(' :: rest => readLabel? .round rest
  | '[' :: rest => readLabel? .rect rest
  | '\x7b' :: rest => readLabel? .diamond rest
  | _ => none

/-- Reads what stands after an arrow without a label: an id, and perhaps the shape of its node. -/
def readDestination? (source : String) (text : List Char) : Option Statement :=
  let destination := String.ofList (text.takeWhile isIdChar)
  match text.dropWhile isIdChar with
  | [] => some (.edge source destination)
  | more => (readShape? more).map fun node => .edgeToNode source destination node.1 node.2

/-- Reads what stands after an arrow that goes on with a label. -/
def readLabelled? (source : String) (text : List Char) : Option Statement :=
  match text.dropWhile isPlain with
  | '|' :: ' ' :: more =>
    some (.labelledEdge source (String.ofList more) (String.ofList (text.takeWhile isPlain)))
  | _ => none

/-- Reads what stands after the first id of a statement. -/
def readAfter? (source : String) : List Char → Option Statement
  | ' ' :: '-' :: '-' :: '>' :: ' ' :: rest => readDestination? source rest
  | ' ' :: '-' :: '-' :: '>' :: '|' :: rest => readLabelled? source rest
  | rest => (readShape? rest).map fun node => .node source node.1 node.2

/-- Reads a statement. -/
def readBody? (text : List Char) : Option Statement :=
  readAfter? (String.ofList (text.takeWhile isIdChar)) (text.dropWhile isIdChar)

/-- Reads a line, which begins with an indentation. -/
def readLine? : List Char → Option Statement
  | ' ' :: ' ' :: ' ' :: ' ' :: rest => readBody? rest
  | _ => none

/-- Reads the first line of a diagram. -/
def readHeader? (text : List Char) : Option Direction :=
  if text = "flowchart TD".toList then some .topDown
  else if text = "flowchart LR".toList then some .leftRight
  else none

/-- Reads a diagram. Its last line ends the text. -/
def read? (text : String) : Option (Direction × List Statement) :=
  match text.toList.splitOn '\n' with
  | [] => none
  | first :: rest => do
    let direction ← readHeader? first
    let statements ← rest.dropLast.mapM readLine?
    return (direction, statements)

/-! ### Ids and labels end where they should -/

theorem span_id {id : String} (valid : IsId id) (rest : List Char)
    (ends : ∀ c ∈ rest.head?, isIdChar c = false) :
    (id.toList ++ rest).takeWhile isIdChar = id.toList ∧
      (id.toList ++ rest).dropWhile isIdChar = rest := by
  rw [List.takeWhile_append_of_pos valid.2, List.dropWhile_append_of_pos valid.2]
  cases rest with
  | nil => simp
  | cons c rest =>
    have stops : isIdChar c = false := ends c rfl
    simp [stops]

theorem span_label (label : String) (rest : List Char)
    (ends : ∀ c ∈ rest.head?, isMetachar c = true) :
    ((sanitize label).toList ++ rest).takeWhile isPlain = (sanitize label).toList ∧
      ((sanitize label).toList ++ rest).dropWhile isPlain = rest := by
  have plain : ∀ c ∈ (sanitize label).toList, isPlain c = true := fun c inside => by
    rw [isPlain, isMetachar_of_mem_sanitize inside]
    rfl
  rw [List.takeWhile_append_of_pos plain, List.dropWhile_append_of_pos plain]
  cases rest with
  | nil => simp
  | cons c rest =>
    have stops : isPlain c = false := by rw [isPlain, ends c rfl]; rfl
    simp [stops]

/-- A written label does not begin with a delimiter, even if it is empty. -/
theorem head?_label_ne (label : String) {c : Char} (delimiter : isMetachar c = true)
    {rest : List Char} (other : rest.head? ≠ some c) :
    ((sanitize label).toList ++ rest).head? ≠ some c := by
  intro first
  cases whole : (sanitize label).toList with
  | nil =>
    rw [whole, List.nil_append] at first
    exact other first
  | cons d more =>
    rw [whole, List.cons_append, List.head?_cons, Option.some.injEq] at first
    subst first
    have plain := isMetachar_of_mem_sanitize (whole ▸ List.mem_cons_self)
    rw [plain] at delimiter
    contradiction

/-! ### Shapes -/

theorem toList_wrap (shape : Shape) (label : String) :
    (shape.wrap label).toList =
      shape.delimiters.1.toList ++ ((sanitize label).toList ++ shape.delimiters.2.toList) := by
  simp [Shape.wrap]

/-- What stands before a label begins with a delimiter that has no place in an id. -/
theorem exists_toList_wrap (shape : Shape) (label : String) :
    ∃ c rest, (shape.wrap label).toList = c :: rest ∧ isIdChar c = false ∧ c ≠ ' ' := by
  rw [toList_wrap]
  cases shape
  case rect | round | diamond => exact ⟨_, _, rfl, by decide, by decide⟩
  case stadium => exact ⟨'(', _, rfl, by decide, by decide⟩

theorem readLabel?_eq (shape : Shape) (label : String) :
    readLabel? shape ((sanitize label).toList ++ shape.delimiters.2.toList) =
      some (shape, sanitize label) := by
  have closes : ∀ c ∈ shape.delimiters.2.toList.head?, isMetachar c = true := by
    cases shape <;> rintro c ⟨⟩ <;> decide
  obtain ⟨before, after⟩ := span_label label _ closes
  rw [readLabel?, after, if_pos rfl, before, String.ofList_toList]

/-- Only after the delimiter of a stadium does the text of a rounded node go on with a bracket. -/
theorem readShape?_round {rest : List Char} (other : rest.head? ≠ some '[') :
    readShape? ('(' :: rest) = readLabel? .round rest := by
  unfold readShape?
  split
  · next same =>
    obtain ⟨-, rfl⟩ := List.cons.inj same
    exact absurd rfl other
  · next same => rw [(List.cons.inj same).2]
  · next same => exact absurd (List.cons.inj same).1 (by decide)
  · next same => exact absurd (List.cons.inj same).1 (by decide)
  · next none _ _ => exact absurd rfl (none rest)

/-- The delimiter before a label tells the shape. -/
theorem readShape?_append (shape : Shape) {rest : List Char} (other : rest.head? ≠ some '[') :
    readShape? (shape.delimiters.1.toList ++ rest) = readLabel? shape rest := by
  cases shape with
  | rect | diamond | stadium => rfl
  -- the text of a stadium begins like that of a rounded node
  | round => exact readShape?_round other

/-- A shape and its label are read back. -/
theorem readShape?_wrap (shape : Shape) (label : String) :
    readShape? (shape.wrap label).toList = some (shape, sanitize label) := by
  have other : ((sanitize label).toList ++ shape.delimiters.2.toList).head? ≠ some '[' := by
    apply head?_label_ne label (by decide)
    cases shape <;> decide
  rw [toList_wrap, readShape?_append shape other, readLabel?_eq]

/-! ### Statements -/

/-- A text that does not begin with a space after an id holds a node. -/
theorem readAfter?_wrap (source : String) (shape : Shape) (label : String) :
    readAfter? source (shape.wrap label).toList =
      some (.node source shape (sanitize label)) := by
  have node := readShape?_wrap shape label
  obtain ⟨c, rest, whole, -, unspaced⟩ := exists_toList_wrap shape label
  rw [whole] at node ⊢
  unfold readAfter?
  split
  · next same => exact absurd (List.cons.inj same).1 unspaced
  · next same => exact absurd (List.cons.inj same).1 unspaced
  · rw [node]
    rfl

/-- What stands after the first id of a statement tells what it is. -/
theorem readBody?_append {id : String} (valid : IsId id) {rest : List Char}
    (ends : ∀ c ∈ rest.head?, isIdChar c = false) :
    readBody? (id.toList ++ rest) = readAfter? id rest := by
  obtain ⟨first, after⟩ := span_id valid rest ends
  rw [readBody?, first, after, String.ofList_toList]

theorem readAfter?_arrow (source : String) (rest : List Char) :
    readAfter? source (" --> ".toList ++ rest) = readDestination? source rest := rfl

theorem readAfter?_labelledArrow (source : String) (rest : List Char) :
    readAfter? source (" -->|".toList ++ rest) = readLabelled? source rest := rfl

/-- An arrow ends an id. -/
theorem isIdChar_of_mem_head?_arrow {arrow : String} (spaced : arrow.toList.head? = some ' ')
    (rest : List Char) : ∀ c ∈ (arrow.toList ++ rest).head?, isIdChar c = false := by
  intro c first
  rw [List.head?_append, spaced] at first
  obtain rfl := Option.some.inj first
  decide

/-- After an arrow, an id alone makes an edge. -/
theorem readDestination?_id (source : String) {destination : String} (valid : IsId destination) :
    readDestination? source destination.toList = some (.edge source destination) := by
  obtain ⟨first, after⟩ := span_id valid [] (by simp)
  rw [List.append_nil] at first after
  rw [readDestination?, after, first, String.ofList_toList]

/-- After an arrow, an id with a shape declares the node. -/
theorem readDestination?_wrap (source : String) {destination : String}
    (valid : IsId destination) (shape : Shape) (label : String) :
    readDestination? source (destination.toList ++ (shape.wrap label).toList) =
      some (.edgeToNode source destination shape (sanitize label)) := by
  have node := readShape?_wrap shape label
  obtain ⟨c, rest, whole, stops, -⟩ := exists_toList_wrap shape label
  rw [whole] at node ⊢
  obtain ⟨first, after⟩ := span_id valid (c :: rest) (by rintro d ⟨⟩; exact stops)
  rw [readDestination?, after, first, String.ofList_toList]
  simp only [node, Option.map_some]

/-- After an arrow with a label, the rest is the id of the destination. -/
theorem readLabelled?_label (source destination label : String) :
    readLabelled? source ((sanitize label).toList ++ ('|' :: ' ' :: destination.toList)) =
      some (.labelledEdge source destination (sanitize label)) := by
  obtain ⟨before, after⟩ := span_label label ('|' :: ' ' :: destination.toList)
    (by rintro d ⟨⟩; decide)
  rw [readLabelled?, after, before, String.ofList_toList]
  exact congrArg (fun name => some (Statement.labelledEdge source name (sanitize label)))
    String.ofList_toList

/-- A statement is read back, with its label as it is written. -/
theorem readBody?_body {statement : Statement} (valid : ∀ id ∈ statement.ids, IsId id) :
    readBody? statement.body.toList = some statement.sanitized := by
  cases statement with
  | node id shape label =>
    have named : IsId id := valid id List.mem_cons_self
    obtain ⟨c, rest, whole, stops, -⟩ := exists_toList_wrap shape label
    have ends : ∀ d ∈ (shape.wrap label).toList.head?, isIdChar d = false := by
      rw [whole]
      rintro d ⟨⟩
      exact stops
    rw [Statement.body, String.toList_append, readBody?_append named ends, readAfter?_wrap]
    rfl
  | edge source destination =>
    have leaves : IsId source := valid source List.mem_cons_self
    have arrives : IsId destination := valid destination (by simp [Statement.ids])
    rw [Statement.body, String.toList_append, String.toList_append, List.append_assoc,
      readBody?_append leaves (isIdChar_of_mem_head?_arrow (by decide) _), readAfter?_arrow,
      readDestination?_id source arrives]
    rfl
  | labelledEdge source destination label =>
    have leaves : IsId source := valid source List.mem_cons_self
    have whole : (Statement.labelledEdge source destination label).body.toList =
        source.toList ++ (" -->|".toList ++
          ((sanitize label).toList ++ ('|' :: ' ' :: destination.toList))) := by
      simp [Statement.body]
    rw [whole, readBody?_append leaves (isIdChar_of_mem_head?_arrow (by decide) _),
      readAfter?_labelledArrow, readLabelled?_label]
    rfl
  | edgeToNode source destination shape label =>
    have leaves : IsId source := valid source List.mem_cons_self
    have arrives : IsId destination := valid destination (by simp [Statement.ids])
    rw [Statement.body, String.toList_append, String.toList_append, String.toList_append,
      List.append_assoc, List.append_assoc,
      readBody?_append leaves (isIdChar_of_mem_head?_arrow (by decide) _), readAfter?_arrow,
      readDestination?_wrap source arrives]
    rfl

/-! ### Diagrams -/

theorem newline_not_mem_wrap (shape : Shape) (label : String) :
    '\n' ∉ (shape.wrap label).toList := by
  rw [toList_wrap, List.mem_append, List.mem_append]
  rintro (inside | inside | inside)
  · revert inside
    cases shape <;> decide
  · exact absurd (isMetachar_of_mem_sanitize inside) (by decide)
  · revert inside
    cases shape <;> decide

theorem newline_not_mem_id {id : String} (valid : IsId id) : '\n' ∉ id.toList :=
  fun inside => absurd (valid.2 _ inside) (by decide)

/-- A statement stays on its line. -/
theorem newline_not_mem_body {statement : Statement} (valid : ∀ id ∈ statement.ids, IsId id) :
    '\n' ∉ statement.body.toList := by
  cases statement with
  | node id shape label =>
    have named := newline_not_mem_id (valid id List.mem_cons_self)
    simp [Statement.body, named, newline_not_mem_wrap]
  | edge source destination =>
    have leaves := newline_not_mem_id (valid source List.mem_cons_self)
    have arrives := newline_not_mem_id (valid destination (by simp [Statement.ids]))
    simp [Statement.body, leaves, arrives]
  | labelledEdge source destination label =>
    have leaves := newline_not_mem_id (valid source List.mem_cons_self)
    have arrives := newline_not_mem_id (valid destination (by simp [Statement.ids]))
    have words : '\n' ∉ (sanitize label).toList := fun inside =>
      absurd (isMetachar_of_mem_sanitize inside) (by decide)
    rw [toList_sanitize] at words
    simp [Statement.body, leaves, arrives, words]
  | edgeToNode source destination shape label =>
    have leaves := newline_not_mem_id (valid source List.mem_cons_self)
    have arrives := newline_not_mem_id (valid destination (by simp [Statement.ids]))
    simp [Statement.body, leaves, arrives, newline_not_mem_wrap]

/-- The lines of statements: one for each, and the end of the text. -/
theorem splitOn_lines {statements : List Statement}
    (valid : ∀ statement ∈ statements, ∀ id ∈ statement.ids, IsId id) :
    (String.join (statements.map Statement.line)).toList.splitOn '\n' =
      (statements.map fun statement => ("    " ++ statement.body).toList) ++ [[]] := by
  induction statements with
  | nil => rfl
  | cons statement rest ih =>
    -- the line of the statement ends at the first line break
    have unbroken : '\n' ∉ ("    " ++ statement.body).toList := by
      have inner := newline_not_mem_body (valid statement List.mem_cons_self)
      simp [inner]
    have first : (String.join ((statement :: rest).map Statement.line)).toList =
        ("    " ++ statement.body).toList ++
          '\n' :: (String.join (rest.map Statement.line)).toList := by
      simp [Statement.line]
    rw [first, List.splitOn_append_cons_self_of_not_mem unbroken,
      ih fun other later => valid other (List.mem_cons_of_mem statement later)]
    rfl

/-- The lines of a diagram: the header, one for each statement, and the end of the text. -/
theorem splitOn_render (direction : Direction) {statements : List Statement}
    (valid : ∀ statement ∈ statements, ∀ id ∈ statement.ids, IsId id) :
    (render direction statements).toList.splitOn '\n' =
      ("flowchart " ++ direction.keyword).toList ::
        ((statements.map fun statement => ("    " ++ statement.body).toList) ++ [[]]) := by
  have unbroken : '\n' ∉ ("flowchart " ++ direction.keyword).toList := by
    cases direction <;> decide
  have whole : (render direction statements).toList =
      ("flowchart " ++ direction.keyword).toList ++
        '\n' :: (String.join (statements.map Statement.line)).toList := by
    simp [render, header]
  rw [whole, List.splitOn_append_cons_self_of_not_mem unbroken, splitOn_lines valid]

theorem readHeader?_eq (direction : Direction) :
    readHeader? ("flowchart " ++ direction.keyword).toList = some direction := by
  cases direction <;> decide

theorem mapM_readLine? {statements : List Statement}
    (valid : ∀ statement ∈ statements, ∀ id ∈ statement.ids, IsId id) :
    (statements.map fun statement => ("    " ++ statement.body).toList).mapM readLine? =
      some (statements.map Statement.sanitized) := by
  induction statements with
  | nil => rfl
  | cons statement rest ih =>
    have line : readLine? ("    " ++ statement.body).toList = some statement.sanitized := by
      rw [String.toList_append]
      exact readBody?_body (valid statement List.mem_cons_self)
    have later := ih fun other inside => valid other (List.mem_cons_of_mem statement inside)
    rw [List.map_cons, List.mapM_cons, line, later]
    rfl

/-- A diagram is read back as it was written. -/
theorem read?_render (direction : Direction) {statements : List Statement}
    (valid : ∀ statement ∈ statements, ∀ id ∈ statement.ids, IsId id) :
    read? (render direction statements) =
      some (direction, statements.map Statement.sanitized) := by
  rw [read?, splitOn_render direction valid]
  simp only [readHeader?_eq, List.dropLast_concat, mapM_readLine? valid]
  rfl

theorem line_sanitized (statement : Statement) : statement.sanitized.line = statement.line := by
  cases statement <;> simp [Statement.sanitized, Statement.line, Statement.body, Shape.wrap]

/-- The text of a diagram depends on its labels only as they are written. -/
theorem render_sanitized (direction : Direction) (statements : List Statement) :
    render direction (statements.map Statement.sanitized) = render direction statements := by
  simp [render, Function.comp_def, line_sanitized]

/-- Two diagrams have the same text just when they have the same direction and the same statements,
with their labels as they are written. -/
theorem render_inj {direction direction' : Direction} {statements statements' : List Statement}
    (valid : ∀ statement ∈ statements, ∀ id ∈ statement.ids, IsId id)
    (valid' : ∀ statement ∈ statements', ∀ id ∈ statement.ids, IsId id) :
    render direction statements = render direction' statements' ↔
      direction = direction' ∧
        statements.map Statement.sanitized = statements'.map Statement.sanitized := by
  constructor
  · -- reading is a left inverse of writing
    intro same
    have read := congrArg read? same
    rw [read?_render direction valid, read?_render direction' valid'] at read
    exact Prod.mk.inj (Option.some.inj read)
  · rintro ⟨rfl, same⟩
    rw [← render_sanitized direction statements, same, render_sanitized]

end ScriptChart.Diagram
