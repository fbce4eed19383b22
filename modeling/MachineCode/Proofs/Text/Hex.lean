import Mathlib.Tactic.IntervalCases
import MachineCode.Text.Hex

/-!
# Hexadecimal text

The sixteen digits are the characters of the numbers below 16. So a byte string is spelled by one
text only, of two digits a byte.
-/

namespace MachineCode.Hex

/-! ### Digits -/

theorem digitValue_digitChar {digit : Nat} (h : digit < 16) :
    digitValue digit.digitChar = digit := by
  revert digit
  decide

theorem isDigit_digitChar {digit : Nat} (h : digit < 16) : isDigit digit.digitChar := by
  revert digit
  decide

theorem exists_digitChar_of_isDigit_ten {c : Char} (h : c.isDigit) :
    ∃ digit < 10, c = digit.digitChar := by
  simp only [Char.isDigit, Bool.and_eq_true, decide_eq_true_eq, ge_iff_le,
    UInt32.le_iff_toNat_le] at h
  have hrange : 48 ≤ c.toNat ∧ c.toNat ≤ 57 := h
  refine ⟨c.toNat - 48, by omega, ?_⟩
  apply Char.toNat_inj.mp
  rw [Nat.toNat_digitChar_of_lt_ten (by omega)]
  omega

theorem exists_digitChar_of_isDigit {c : Char} (h : isDigit c) :
    ∃ digit < 16, c = digit.digitChar := by
  rw [isDigit, Bool.or_eq_true] at h
  rcases h with hdecimal | hletter
  · obtain ⟨digit, hdigit, hc⟩ := exists_digitChar_of_isDigit_ten hdecimal
    exact ⟨digit, by omega, hc⟩
  · simp only [Bool.and_eq_true, decide_eq_true_eq, Char.le_def, UInt32.le_iff_toNat_le]
      at hletter
    have hrange : 97 ≤ c.toNat ∧ c.toNat ≤ 102 := hletter
    refine ⟨c.toNat - 87, by omega, ?_⟩
    have hc : c = Char.ofNat c.toNat := (Char.ofNat_toNat c).symm
    obtain ⟨hlow, hhigh⟩ := hrange
    generalize c.toNat = code at hc hlow hhigh
    rw [hc]
    interval_cases code <;> rfl

/-! ### Byte strings -/

section Bytes

variable {text : List Char} {bytes : List UInt8}

theorem bytes?_cons_byteDigits (byte : UInt8) (rest : List Char) :
    bytes? (byteDigits byte ++ rest) = (bytes? rest).map (byte :: ·) := by
  have hbyte : byte.toNat < 256 := byte.toNat_lt
  have hhigh : byte.toNat / 16 < 16 := by omega
  have hlow : byte.toNat % 16 < 16 := by omega
  have hvalue : 16 * (byte.toNat / 16) + byte.toNat % 16 = byte.toNat := by omega
  simp [byteDigits, bytes?, isDigit_digitChar hhigh, isDigit_digitChar hlow,
    digitValue_digitChar hhigh, digitValue_digitChar hlow, hvalue]

theorem bytes?_flatMap_byteDigits (bytes : List UInt8) :
    bytes? (bytes.flatMap byteDigits) = some bytes := by
  induction bytes with
  | nil => rfl
  | cons byte bytes ih =>
    rw [List.flatMap_cons, bytes?_cons_byteDigits, ih]
    rfl

theorem byteDigits_ofNat {high low : Nat} (hhigh : high < 16) (hlow : low < 16) :
    byteDigits (UInt8.ofNat (16 * high + low)) = [high.digitChar, low.digitChar] := by
  have hvalue : (UInt8.ofNat (16 * high + low)).toNat = 16 * high + low :=
    UInt8.toNat_ofNat_of_lt' (by simp only [UInt8.size]; omega)
  have hdiv : (16 * high + low) / 16 = high := by omega
  have hmod : (16 * high + low) % 16 = low := by omega
  rw [byteDigits, hvalue, hdiv, hmod]

theorem bytes?_eq_some_iff : bytes? text = some bytes ↔ text = bytes.flatMap byteDigits := by
  constructor
  · intro h
    induction text using bytes?.induct generalizing bytes with
    | case1 =>
      cases h
      rfl
    | case2 => cases h
    | case3 high low rest hdigits ih =>
      rw [bytes?, if_pos hdigits] at h
      obtain ⟨more, hmore, rfl⟩ := Option.map_eq_some_iff.mp h
      rw [Bool.and_eq_true] at hdigits
      obtain ⟨highValue, hhigh, rfl⟩ := exists_digitChar_of_isDigit hdigits.1
      obtain ⟨lowValue, hlow, rfl⟩ := exists_digitChar_of_isDigit hdigits.2
      rw [List.flatMap_cons, digitValue_digitChar hhigh, digitValue_digitChar hlow,
        byteDigits_ofNat hhigh hlow, ih hmore]
      rfl
    | case4 high low rest hdigits =>
      rw [bytes?, if_neg hdigits] at h
      cases h
  · rintro rfl
    exact bytes?_flatMap_byteDigits bytes

/-- One text only spells a byte string. -/
theorem bytes?_toList_eq_some_iff {text : String} :
    bytes? text.toList = some bytes ↔ text = ofBytes bytes := by
  rw [bytes?_eq_some_iff, ofBytes, ← String.toList_inj, String.toList_ofList]

theorem length_ofBytes (bytes : List UInt8) : (ofBytes bytes).length = 2 * bytes.length := by
  rw [ofBytes, String.length_ofList]
  induction bytes with
  | nil => rfl
  | cons byte bytes ih =>
    rw [List.flatMap_cons, List.length_append, ih, byteDigits, List.length_cons, List.length_cons,
      List.length_nil, List.length_cons]
    omega

theorem isDigit_of_mem_ofBytes {c : Char} (h : c ∈ (ofBytes bytes).toList) : isDigit c := by
  rw [ofBytes, String.toList_ofList, List.mem_flatMap] at h
  obtain ⟨byte, -, hc⟩ := h
  have hbyte : byte.toNat < 256 := byte.toNat_lt
  simp only [byteDigits, List.mem_cons, List.not_mem_nil, or_false] at hc
  rcases hc with rfl | rfl
  · exact isDigit_digitChar (by omega)
  · exact isDigit_digitChar (by omega)

end Bytes

end MachineCode.Hex
