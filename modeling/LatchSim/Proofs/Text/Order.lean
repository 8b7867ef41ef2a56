import LatchSim.Proofs.Text.Utf8

/-!
# Order of encoded texts

Texts are in the same order as the bytes that encode them: `encode_lt_iff`. The encodings of two
characters differ in a byte, and the first that differs decides, whatever follows.
-/

namespace LatchSim.Text.Utf8

/-- Bytes are compared as numbers. -/
theorem map_toNat_lt_iff {first second : List UInt8} :
    first.map UInt8.toNat < second.map UInt8.toNat ↔ first < second := by
  induction first generalizing second with
  | nil => cases second <;> simp
  | cons a first ih =>
    cases second with
    | nil => simp
    | cons b second =>
      simp [List.cons_lt_cons_iff, ih, UInt8.lt_iff_toNat_lt, UInt8.toNat_inj]

theorem units_append_lt {m n : Nat} (less : m < n) (rest more : List Nat) :
    units m ++ rest < units n ++ more := by
  unfold units
  repeat' split
  all_goals
    simp only [List.cons_append, List.nil_append, List.cons_lt_cons_iff]
    omega

theorem encodeChar_append_lt {c d : Char} (less : c < d) (rest more : List UInt8) :
    String.utf8EncodeChar c ++ rest < String.utf8EncodeChar d ++ more := by
  rw [← map_toNat_lt_iff, List.map_append, List.map_append, toNat_encodeChar, toNat_encodeChar]
  exact units_append_lt less _ _

theorem flatMap_encodeChar_lt {chars others : List Char} (less : chars < others) :
    chars.flatMap String.utf8EncodeChar < others.flatMap String.utf8EncodeChar := by
  induction less with
  | @nil c others =>
    cases code : String.utf8EncodeChar c with
    | nil => exact absurd code String.utf8EncodeChar_ne_nil
    | cons a tail => simp [code]
  | rel less => exact encodeChar_append_lt less _ _
  | cons _ ih => exact List.append_left_lt ih

theorem encode_lt {s t : String} (less : s < t) : encode s < encode t := by
  rw [← s.ofList_toList, ← t.ofList_toList, encode_ofList, encode_ofList]
  exact flatMap_encodeChar_lt less

/-- Texts are in the order of their bytes. -/
theorem encode_lt_iff {s t : String} : encode s < encode t ↔ s < t := by
  refine ⟨fun less => Classical.byContradiction fun notBefore => ?_, encode_lt⟩
  by_cases after : t < s
  · exact List.lt_asymm less (encode_lt after)
  · obtain rfl := String.le_antisymm (String.not_lt.mp after) (String.not_lt.mp notBefore)
    exact List.lt_irrefl _ less

theorem encode_le_iff {s t : String} : encode s ≤ encode t ↔ s ≤ t := by
  rw [← List.not_lt, ← String.not_lt, encode_lt_iff]

end LatchSim.Text.Utf8
