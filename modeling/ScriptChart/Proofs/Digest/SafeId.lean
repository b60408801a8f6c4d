import ScriptChart.Digest.SafeId

/-!
# The form of safe ids

Every safe id consists of exactly thirty-two of the sixteen lower-case hexadecimal digits,
whatever characters the text has that it belongs to.

## Main results

* `length_toList_safeId`: a safe id has thirty-two characters.
* `mem_hexDigits_of_mem_safeId`: each of them is a digit of base sixteen.
-/

namespace ScriptChart.Digest

/-- The digits that safe ids consist of. -/
def hexDigits : List Char := "0123456789abcdef".toList

theorem hexDigit_mem_hexDigits : ∀ value < 16, hexDigit value ∈ hexDigits := by decide

theorem length_hex (bytes : List UInt8) : (hex bytes).length = 2 * bytes.length := by
  induction bytes with
  | nil => rfl
  | cons byte rest ih =>
    simp only [hex, List.flatMap_cons, List.length_append, List.length_cons, List.length_nil]
    change 2 + (hex rest).length = _
    rw [ih]
    omega

theorem mem_hexDigits_of_mem_hex {bytes : List UInt8} {c : Char} (inside : c ∈ hex bytes) :
    c ∈ hexDigits := by
  simp only [hex, List.mem_flatMap, List.mem_cons, List.not_mem_nil, or_false] at inside
  obtain ⟨byte, -, rfl | rfl⟩ := inside
  · have small : byte.toNat / 16 < 16 := Nat.div_lt_of_lt_mul byte.toNat_lt
    exact hexDigit_mem_hexDigits _ small
  · exact hexDigit_mem_hexDigits _ (Nat.mod_lt _ (by decide))

theorem length_digest (bytes : List UInt8) : (Md5.digest bytes).length = 16 := by
  simp [Md5.digest, Md5.littleEndian]

/-- A safe id has thirty-two characters. -/
theorem length_toList_safeId (text : String) : (safeId text).toList.length = 32 := by
  rw [safeId, String.toList_ofList, length_hex, length_digest]

/-- A safe id consists of digits of base sixteen. -/
theorem mem_hexDigits_of_mem_safeId {text : String} {c : Char}
    (inside : c ∈ (safeId text).toList) : c ∈ hexDigits := by
  rw [safeId, String.toList_ofList] at inside
  exact mem_hexDigits_of_mem_hex inside

end ScriptChart.Digest
