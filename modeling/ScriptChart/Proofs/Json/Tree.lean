import ScriptChart.Json.Tree

/-!
# The bytes of a JSON text

A JSON text has no bytes below the space but those of the three other blanks. Whatever the bytes
before it make up, a byte of this kind ends the reading: a string literal refuses it, and no token
is written with it. The invariant is that a word of which some bytes are still to come is spelled
without such bytes.

## Main definitions

* `IsControl`: the bytes that no text has.
* `Scanner.IsSpelled`: what is still to come of a word has none of them.

## Main results

* `Reading.step_eq_none`, `Reading.isSpelled_of_step`: one byte.
* `not_isControl_of_ofBytes?`: a whole text.
-/

namespace ScriptChart.Json

/-- A byte below the space that is no blank. -/
def IsControl (b : UInt8) : Prop := b < 0x20 ∧ b ≠ 0x09 ∧ b ≠ 0x0A ∧ b ≠ 0x0D

instance (b : UInt8) : Decidable (IsControl b) := inferInstanceAs (Decidable (_ ∧ _))

/-- What is still to come of a word is spelled without control bytes. -/
def Scanner.IsSpelled : Scanner → Prop
  | .word next rest _ => ∀ b ∈ next :: rest, ¬ IsControl b
  | _ => True

instance : (scanner : Scanner) → Decidable scanner.IsSpelled
  | .word next rest _ => List.decidableBAll (fun b => ¬ IsControl b) (next :: rest)
  | .between | .numeral _ | .literal _ | .escape _ | .codeUnit _ _ _ => isTrue trivial

variable {b : UInt8}

theorem IsControl.ne (control : IsControl b) {c : UInt8} (other : ¬ IsControl c) : b ≠ c := by
  rintro rfl
  exact other control

theorem digit?_eq_none (control : IsControl b) : digit? b = none := by
  have below : ¬ 0x30 ≤ b := UInt8.not_le.mpr (UInt8.lt_trans control.1 (by decide))
  simp [digit?, below]

theorem hexDigit?_eq_none (control : IsControl b) : hexDigit? b = none := by
  have below : ∀ c : UInt8, 0x20 ≤ c → ¬ c ≤ b := fun c above =>
    UInt8.not_le.mpr (UInt8.lt_of_lt_of_le control.1 above)
  simp [hexDigit?, below 0x30 (by decide), below 0x41 (by decide), below 0x61 (by decide)]

theorem shortEscape?_eq_none (control : IsControl b) : shortEscape? b = none := by
  simp (disch := decide) [shortEscape?, control.ne]

theorem PartialNumeral.add?_eq_none (control : IsControl b) (p : PartialNumeral) :
    p.add? b = none := by
  obtain ⟨part, digits⟩ := p
  cases part <;> simp (disch := decide) [add?, digit?_eq_none control, control.ne]

namespace Reading

/-! ### One byte -/

variable {builder : Builder} {r next : Reading}

theorem begin_eq_none (control : IsControl b) : begin builder b = none := by
  simp (disch := decide) [begin, PartialNumeral.add?_eq_none control, control.2, control.ne]

/-- A control byte ends the reading. -/
theorem step_eq_none (spelled : r.scanner.IsSpelled) (control : IsControl b) :
    r.step b = none := by
  obtain ⟨scanner, builder⟩ := r
  cases scanner with
  | between => exact begin_eq_none control
  | word next rest value =>
    have other : ¬ b = next := control.ne (spelled next List.mem_cons_self)
    simp [step, other]
  | numeral partially =>
    simp [step, PartialNumeral.add?_eq_none control, begin_eq_none control]
  | literal pieces => simp (disch := decide) [step, control.1, control.ne]
  | escape pieces => simp (disch := decide) [step, shortEscape?_eq_none control, control.ne]
  | codeUnit pieces missing value => simp [step, hexDigit?_eq_none control]

theorem isSpelled_of_emit {token : Token} (done : emit builder token = some next) :
    next.scanner.IsSpelled := by
  obtain ⟨-, -, rfl⟩ := Option.map_eq_some_iff.mp done
  trivial

/-- The words that can begin are spelled without control bytes. -/
theorem isSpelled_of_begin : begin builder b = some next → next.scanner.IsSpelled := by
  unfold begin
  -- one case for each byte that a token can begin with
  repeat'
    apply iteInduction (motive := fun begun => begun = some next → next.scanner.IsSpelled)
    <;> intro _
  all_goals intro done
  any_goals exact isSpelled_of_emit done
  case' hneg => split at done
  all_goals cases done
  any_goals trivial
  all_goals
    dsimp only
    decide

/-- What is still to come of a word stays spelled without control bytes. -/
theorem isSpelled_of_step (spelled : r.scanner.IsSpelled) (done : r.step b = some next) :
    next.scanner.IsSpelled := by
  obtain ⟨scanner, builder⟩ := r
  cases scanner with
  | between => exact isSpelled_of_begin done
  | word first rest value =>
    simp only [step] at done
    split at done
    -- the byte is the one that the word goes on with, or the reading ends
    · match rest with
      | [] => exact isSpelled_of_emit done
      | second :: rest =>
        cases done
        exact (List.forall_mem_cons.mp spelled).2
    · cases done
  | numeral partially =>
    simp only [step] at done
    split at done
    · cases done
      trivial
    · split at done
      · obtain ⟨after, -, begun⟩ := Option.bind_eq_some_iff.mp done
        exact isSpelled_of_begin begun
      · cases done
  | literal pieces =>
    simp only [step] at done
    repeat' split at done
    · exact isSpelled_of_emit done
    all_goals
      cases done
      try trivial
  | escape pieces =>
    simp only [step] at done
    split at done
    · cases done
      trivial
    · obtain ⟨byte, -, rfl⟩ := Option.map_eq_some_iff.mp done
      trivial
  | codeUnit pieces missing value =>
    obtain ⟨digit, -, rfl⟩ := Option.map_eq_some_iff.mp done
    dsimp only
    split <;> trivial

end Reading

/-! ### A whole text -/

/-- No byte that is taken is a control byte. -/
theorem not_isControl_of_foldlM {bytes : List UInt8} {r last : Reading}
    (spelled : r.scanner.IsSpelled) (done : bytes.foldlM Reading.step r = some last) :
    ∀ b ∈ bytes, ¬ IsControl b := by
  induction bytes generalizing r with
  | nil => exact fun _ inside => absurd inside List.not_mem_nil
  | cons first rest ih =>
    rw [List.foldlM_cons] at done
    obtain ⟨next, taken, later⟩ := Option.bind_eq_some_iff.mp done
    refine List.forall_mem_cons.mpr ⟨fun control => ?_,
      ih (Reading.isSpelled_of_step spelled taken) later⟩
    cases (Reading.step_eq_none spelled control).symm.trans taken

/-- A JSON text has no control bytes. -/
theorem not_isControl_of_ofBytes? {bytes : List UInt8} {tree : Tree}
    (reads : Tree.ofBytes? bytes = some tree) : ∀ b ∈ bytes, ¬ IsControl b := by
  obtain ⟨last, done, -⟩ := Option.bind_eq_some_iff.mp reads
  exact not_isControl_of_foldlM (show Reading.start.scanner.IsSpelled from trivial) done

end ScriptChart.Json
