import ScriptChart.Project.Decode
import ScriptChart.Proofs.OrderedMap

/-!
# The shapes of input slots

What an input slot of a block holds is decided by the shape of the value that is written there. A
string, or an array that wraps a string, refers to a block. An array that wraps another array holds
a primitive, which is a message or a text, so that nothing is nested within it. An array with the
code of a message is a message, and every other value is a text. No value has two of these shapes,
and a branch of a block is a reference.

## Main definitions

* `IsReference`, `IsWrapped`, `IsMessage`, `IsPlain`: the shapes of values.
* `IsContent`: what a primitive stands for.
* `payload`, `messageId?`, `plainText`: the texts in a value.
* `InputValue.Reads`: what is read from a value of each shape.

## Main results

* `InputValue.ofValue_eq_iff_reads`: what is read from a value is told by its shape.
* `closed_union`: the shape of a value is told by what is read from it.
-/

namespace ScriptChart.Project

open ScriptChart.Json (Value)

/-! ### Shapes of values -/

/-- An array begins with a code, which is a whole number. -/
def BeginsWithCode (code : Int) (items : List Value) : Prop :=
  ∃ rest, items = .number (.int code) :: rest

/-- A code says that an array wraps what the slot holds. -/
def Wraps (code : Int) : Prop := 1 ≤ code ∧ code ≤ 3

/-- A value refers to a block: it is the block's id, or an array in which the id is wrapped. -/
inductive IsReference (id : String) : Value → Prop
  | plain : IsReference id (.string id)
  | wrapped {code : Int} {rest : List Value} (wraps : Wraps code) :
      IsReference id (.array (.number (.int code) :: .string id :: rest))

/-- A value is an array in which a primitive is wrapped. -/
inductive IsWrapped (items : List Value) : Value → Prop
  | wrapped {code : Int} {rest : List Value} (wraps : Wraps code) :
      IsWrapped items (.array (.number (.int code) :: .array items :: rest))

/-- A value is an array with the code of a message. -/
inductive IsMessage (items : List Value) : Value → Prop
  | coded (begins : BeginsWithCode broadcastCode items) : IsMessage items (.array items)

/-- A value is none of these. -/
structure IsPlain (written : Value) : Prop where
  not_reference : ∀ {id}, ¬ IsReference id written
  not_wrapped : ∀ {items}, ¬ IsWrapped items written
  not_message : ∀ {items}, ¬ IsMessage items written

/-- The text behind the code of an array, empty when nothing stands there. -/
def payload : List Value → String
  | _ :: value :: _ => value.scalarText
  | _ => ""

/-- The id of a message, which stands behind its name. Only a string is an id. -/
def messageId? : List Value → Option String
  | _ :: _ :: .string id :: _ => some id
  | _ => none

/-- The text of a plain value. -/
def plainText : Value → String
  | .array items => payload items
  | other => other.scalarText

/-- What a primitive stands for: a message when it has the code of one, and else a text. -/
inductive IsContent (items : List Value) : InputValue → Prop
  | message (begins : BeginsWithCode broadcastCode items) :
      IsContent items (.broadcast (payload items) (messageId? items))
  | text (other : ¬ BeginsWithCode broadcastCode items) :
      IsContent items (.literal (payload items))

/-! ### Codes and what stands behind them -/

theorem textAt_one (items : List Value) : textAt items 1 = payload items := by
  match items with
  | [] | [_] | _ :: _ :: _ => rfl

theorem idAt?_two (items : List Value) : idAt? items 2 = messageId? items := by
  match items with
  | [] | [_] | [_, _] => rfl
  | _ :: _ :: third :: _ => cases third <;> rfl

theorem codeOf_cons {code : Int} (fits : code < 0x8000000000000000) (rest : List Value) :
    codeOf (.number (.int code) :: rest) = code := by
  simp [codeOf, fits]

/-- A code other than zero is written at the front of its array. -/
theorem beginsWithCode_codeOf {items : List Value} (counts : codeOf items ≠ 0) :
    BeginsWithCode (codeOf items) items := by
  match items with
  | .number (.int code) :: rest =>
    have fits : code < 0x8000000000000000 := Decidable.byContradiction fun beyond =>
      counts (by simp [codeOf, beyond])
    exact ⟨rest, by rw [codeOf_cons fits]⟩
  | [] | .null :: _ | .bool _ :: _ | .number (.float _) :: _ | .string _ :: _ | .array _ :: _
  | .object _ :: _ => exact absurd rfl counts

theorem codeOf_eq_broadcastCode_iff {items : List Value} :
    codeOf items = broadcastCode ↔ BeginsWithCode broadcastCode items := by
  constructor
  · intro coded
    rw [← coded]
    exact beginsWithCode_codeOf (by rw [coded]; decide)
  · rintro ⟨rest, rfl⟩
    exact codeOf_cons (by decide) rest

namespace InputValue

/-! ### What is read from each shape -/

theorem ofPrimitive_of_begins {items : List Value}
    (begins : BeginsWithCode broadcastCode items) :
    ofPrimitive items = .broadcast (payload items) (messageId? items) := by
  rw [ofPrimitive, if_pos (codeOf_eq_broadcastCode_iff.mpr begins), textAt_one, idAt?_two]

theorem ofPrimitive_of_not_begins {items : List Value}
    (other : ¬ BeginsWithCode broadcastCode items) :
    ofPrimitive items = .literal (payload items) := by
  rw [ofPrimitive, if_neg (mt codeOf_eq_broadcastCode_iff.mp other), textAt_one]

theorem isContent_iff {items : List Value} {inner : InputValue} :
    IsContent items inner ↔ inner = ofPrimitive items := by
  constructor
  · rintro (begins | other)
    · exact (ofPrimitive_of_begins begins).symm
    · exact (ofPrimitive_of_not_begins other).symm
  · rintro rfl
    by_cases begins : BeginsWithCode broadcastCode items
    · rw [ofPrimitive_of_begins begins]
      exact .message begins
    · rw [ofPrimitive_of_not_begins begins]
      exact .text begins

/-- What is read from an array that wraps something depends on what stands behind its code. -/
theorem ofValue_of_wraps {code : Int} (wraps : Wraps code) (rest : List Value) :
    ofValue (.array (.number (.int code) :: rest)) =
      match rest with
      | .string id :: _ => .block id
      | .array inner :: _ => .nested (ofPrimitive inner)
      | other :: _ => .literal other.scalarText
      | [] => .literal "" := by
  unfold Wraps at wraps
  have fits : code < 0x8000000000000000 := by omega
  rw [ofValue, codeOf_cons fits, if_pos wraps]
  match rest with
  | [] => rfl
  | first :: _ => cases first <;> rfl

/-- An array that wraps nothing is a primitive. -/
theorem ofValue_of_not_wraps {items : List Value} (bare : ¬ Wraps (codeOf items)) :
    ofValue (.array items) = ofPrimitive items :=
  if_neg bare

variable {written : Value}

theorem ofValue_of_isReference {id : String} (refers : IsReference id written) :
    ofValue written = .block id := by
  cases refers with
  | plain => rfl
  | wrapped wraps => rw [ofValue_of_wraps wraps]

theorem ofValue_of_isWrapped {items : List Value} (wrapped : IsWrapped items written) :
    ofValue written = .nested (ofPrimitive items) := by
  obtain ⟨wraps⟩ := wrapped
  rw [ofValue_of_wraps wraps]

theorem ofValue_of_isMessage {items : List Value} (message : IsMessage items written) :
    ofValue written = .broadcast (payload items) (messageId? items) := by
  obtain ⟨begins⟩ := message
  have bare : ¬ Wraps (codeOf items) := by
    rw [codeOf_eq_broadcastCode_iff.mpr begins, Wraps]
    decide
  rw [ofValue_of_not_wraps bare, ofPrimitive_of_begins begins]

theorem ofValue_of_isPlain (plain : IsPlain written) :
    ofValue written = .literal (plainText written) := by
  match written with
  | .null | .bool _ | .number _ | .object _ => rfl
  | .string _ => exact absurd .plain plain.not_reference
  | .array items =>
    by_cases wraps : Wraps (codeOf items)
    · have counts : codeOf items ≠ 0 := by
        unfold Wraps at wraps
        omega
      obtain ⟨rest, begins⟩ := beginsWithCode_codeOf counts
      rw [begins, ofValue_of_wraps wraps]
      -- what is wrapped is neither a reference nor a primitive
      match rest with
      | [] | .null :: _ | .bool _ :: _ | .number _ :: _ | .object _ :: _ => rfl
      | .string id :: _ => exact absurd (begins ▸ .wrapped wraps) (@plain.not_reference id)
      | .array inner :: _ => exact absurd (begins ▸ .wrapped wraps) (@plain.not_wrapped inner)
    · rw [ofValue_of_not_wraps wraps, plainText]
      exact ofPrimitive_of_not_begins fun begins => plain.not_message (.coded begins)

/-- A value is read by its shape. -/
inductive Reads : Value → InputValue → Prop
  | reference {written : Value} {id : String} (refers : IsReference id written) :
      Reads written (.block id)
  | wrapped {written : Value} {items : List Value} (wrapped : IsWrapped items written) :
      Reads written (.nested (ofPrimitive items))
  | message {written : Value} {items : List Value} (message : IsMessage items written) :
      Reads written (.broadcast (payload items) (messageId? items))
  | plain {written : Value} (plain : IsPlain written) : Reads written (.literal (plainText written))

/-- Every value has one of the shapes. -/
theorem exists_reads (written : Value) : ∃ value, Reads written value := by
  by_cases refers : ∃ id, IsReference id written
  · exact ⟨_, .reference refers.choose_spec⟩
  by_cases wrapped : ∃ items, IsWrapped items written
  · exact ⟨_, .wrapped wrapped.choose_spec⟩
  by_cases message : ∃ items, IsMessage items written
  · exact ⟨_, .message message.choose_spec⟩
  exact ⟨_, .plain ⟨fun is => refers ⟨_, is⟩, fun is => wrapped ⟨_, is⟩,
    fun is => message ⟨_, is⟩⟩⟩

theorem ofValue_of_reads {value : InputValue} (reads : Reads written value) :
    ofValue written = value := by
  cases reads with
  | reference refers => exact ofValue_of_isReference refers
  | wrapped wrapped => exact ofValue_of_isWrapped wrapped
  | message message => exact ofValue_of_isMessage message
  | plain plain => exact ofValue_of_isPlain plain

/-- What is read from a value is told by its shape, and by nothing else. -/
theorem ofValue_eq_iff_reads {value : InputValue} :
    ofValue written = value ↔ Reads written value := by
  refine ⟨fun read => ?_, ofValue_of_reads⟩
  obtain ⟨other, reads⟩ := exists_reads written
  rwa [← read, ofValue_of_reads reads]

theorem ofValue_eq_block_iff {id : String} :
    ofValue written = .block id ↔ IsReference id written := by
  rw [ofValue_eq_iff_reads]
  constructor
  · intro reads
    cases reads with
    | reference refers => exact refers
  · exact .reference

theorem ofValue_eq_nested_iff {inner : InputValue} :
    ofValue written = .nested inner ↔
      ∃ items, IsWrapped items written ∧ IsContent items inner := by
  rw [ofValue_eq_iff_reads]
  constructor
  · intro reads
    cases reads with
    | wrapped wrapped => exact ⟨_, wrapped, isContent_iff.mpr rfl⟩
  · rintro ⟨items, wrapped, content⟩
    rw [isContent_iff.mp content]
    exact .wrapped wrapped

theorem ofValue_eq_broadcast_iff {given : String} {id : Option String} :
    ofValue written = .broadcast given id ↔
      ∃ items, IsMessage items written ∧ given = payload items ∧ id = messageId? items := by
  rw [ofValue_eq_iff_reads]
  constructor
  · intro reads
    cases reads with
    | message message => exact ⟨_, message, rfl, rfl⟩
  · rintro ⟨items, message, rfl, rfl⟩
    exact .message message

theorem ofValue_eq_literal_iff {text : String} :
    ofValue written = .literal text ↔ IsPlain written ∧ text = plainText written := by
  rw [ofValue_eq_iff_reads]
  constructor
  · intro reads
    cases reads with
    | plain plain => exact ⟨plain, rfl⟩
  · rintro ⟨plain, rfl⟩
    exact .plain plain

end InputValue

/-! ### Branches -/

theorem Block.branch?_eq_some_iff {block : Block} {name id : String} :
    block.branch? name = some id ↔ block.inputs.get? name = some (.block id) := by
  unfold Block.branch?
  split <;> simp_all

/-- The inputs of a block are read from its member for them, slot by slot. -/
theorem Block.inputs_ofValue? {members : List (String × Value)} {block : Block}
    (read : Block.ofValue? (.object members) = some block) :
    orDefault (table InputValue.ofValue) ∅ (members.lookup "inputs") = some block.inputs := by
  simp only [Block.ofValue?, membersOfValue?, memberNames, List.map_cons, List.map_nil,
    Option.bind_eq_bind, Option.bind_eq_some_iff, Option.pure_def, Option.some.injEq] at read
  obtain ⟨opcode, -, next, -, parent, -, topLevel, -, fields, -, inputs, held, mutation, -, rfl⟩ :=
    read
  exact held

/-- An input of a block is read from the value that is written in its slot. -/
theorem Block.get?_inputs_ofValue? {members : List (String × Value)} {block : Block}
    (read : Block.ofValue? (.object members) = some block) {name : String} {value : InputValue} :
    block.inputs.get? name = some value ↔
      ∃ slots written, members.lookup "inputs" = some (.object slots) ∧
        (OrderedMap.ofList slots).get? name = some written ∧ .ofValue written = value := by
  have held := Block.inputs_ofValue? read
  match found : members.lookup "inputs" with
  | none =>
    rw [found] at held
    have empty : block.inputs = ∅ := (Option.some.inj held).symm
    have nothing : block.inputs.get? name = none := by rw [empty]; rfl
    simp [nothing]
  | some (.object slots) =>
    rw [found] at held
    rw [← Option.some.inj held, OrderedMap.get?_filterMap]
    simp [Option.bind_eq_some_iff]
  | some .null | some (.bool _) | some (.number _) | some (.string _) | some (.array _) =>
    rw [found] at held
    cases held

/-- What an input slot holds, for every value that can be written in it. A reference to a block is
read from just the values of that shape, a value that is nested from just those that wrap a
primitive, and a message from just those with the code of one; a text is read from all others, and
from no other. What is nested is a message when the primitive has the code of one, and else a text,
so it neither is a reference nor nests anything itself. Names and texts are what stands behind the
code, and a message has an id just if a string stands behind its name. So a branch of a block begins
with a block just if a reference to that block is written in the slot. -/
theorem closed_union :
    (∀ written : Value,
      (∀ id, InputValue.ofValue written = .block id ↔ IsReference id written) ∧
      (∀ inner, InputValue.ofValue written = .nested inner ↔
        ∃ items, IsWrapped items written ∧ IsContent items inner) ∧
      (∀ given id, InputValue.ofValue written = .broadcast given id ↔
        ∃ items, IsMessage items written ∧ given = payload items ∧ id = messageId? items) ∧
      ∀ text, InputValue.ofValue written = .literal text ↔
        IsPlain written ∧ text = plainText written) ∧
    ∀ members block, Block.ofValue? (.object members) = some block →
      ∀ name id, block.branch? name = some id ↔
        ∃ slots written, members.lookup "inputs" = some (.object slots) ∧
          (OrderedMap.ofList slots).get? name = some written ∧ IsReference id written := by
  refine ⟨fun written => ⟨fun _ => InputValue.ofValue_eq_block_iff,
    fun _ => InputValue.ofValue_eq_nested_iff, fun _ _ => InputValue.ofValue_eq_broadcast_iff,
    fun _ => InputValue.ofValue_eq_literal_iff⟩, fun members block read name id => ?_⟩
  simp only [Block.branch?_eq_some_iff, Block.get?_inputs_ofValue? read,
    InputValue.ofValue_eq_block_iff]

/-- The inputs of a block that repeats: a message where a number belongs, a body, and a second
branch behind a code that wraps nothing. -/
def repeatSlots : List (String × Value) :=
  [("TIMES", .array [.number (.int 1), .array [.number (.int 11), .string "go", .null]]),
    ("SUBSTACK", .array [.number (.int 2), .string "body"]),
    ("SUBSTACK2", .array [.number (.int 4), .string "body"])]

/-- A block that repeats, as it is written. -/
def repeatMembers : List (String × Value) :=
  [("opcode", .string "control_repeat"), ("inputs", .object repeatSlots)]

/-- The message is nested and has no id. The body is a branch, and the other slot is none: it holds
the id of the body as a text. -/
theorem closed_union_repeatMembers :
    InputValue.ofValue
        (.array [.number (.int 1), .array [.number (.int 11), .string "go", .null]]) =
      .nested (.broadcast "go" none) ∧
    ∃ block, Block.ofValue? (.object repeatMembers) = some block ∧
      block.branch? "SUBSTACK" = some "body" ∧ block.branch? "SUBSTACK2" = none := by
  have reads : (Block.ofValue? (.object repeatMembers)).isSome = true := by decide +kernel
  obtain ⟨block, read⟩ := Option.isSome_iff_exists.mp reads
  obtain ⟨shapes, branches⟩ := closed_union
  have inputs : repeatMembers.lookup "inputs" = some (.object repeatSlots) := rfl
  refine ⟨((shapes _).2.1 _).mpr ⟨_, .wrapped ⟨by decide, by decide⟩, .message ⟨_, rfl⟩⟩, block,
    read, ?_, ?_⟩
  · exact (branches repeatMembers block read _ _).mpr
      ⟨repeatSlots, _, inputs, rfl, .wrapped ⟨by decide, by decide⟩⟩
  · refine Option.eq_none_iff_forall_ne_some.mpr fun id branch => ?_
    obtain ⟨slots, written, held, found, refers⟩ :=
      (branches repeatMembers block read _ _).mp branch
    cases inputs.symm.trans held
    cases found
    obtain _ | ⟨-, small⟩ := refers
    exact absurd small (by decide)

end ScriptChart.Project
