import MachineCode.Proofs.Request.Admission
import MachineCode.Session.Encoder

/-!
# Requests that are turned away

The checks that need no engine stop at the first fault. For the requests that steps can build there
are three such faults: a long mnemonic, a kept misuse, and a scale that no address has.
-/

namespace MachineCode

namespace Request

variable {req : Request} {failure : EncodeFailure}

theorem rejection?_eq_some_iff (hreq : req.operands.Packed) :
    req.rejection? = some failure ↔ req.RejectedFor failure := by
  have hcount : ¬ operandLimit < req.operands.size := Nat.not_lt.mpr hreq.size_le
  have hbad : (req.operands.hasMemory && !req.address.hasValidScale) = true ↔
      (∃ width, .mem width ∈ req.operands.toList) ∧ req.address.scale ∉ [0, 1, 2, 4, 8] := by
    rw [Bool.and_eq_true, Bool.not_eq_true', Address.hasValidScale, List.contains_eq_mem,
      decide_eq_false_iff_not, OperandSlots.hasMemory_iff]
  rw [rejection?]
  constructor
  · intro h
    by_cases hlong : bufferSize < req.mnemonic.utf8ByteSize
    · rw [if_pos hlong] at h
      cases h
      exact .mnemonic hlong
    have hname : req.mnemonic.utf8ByteSize ≤ 48 := Nat.not_lt.mp hlong
    rw [if_neg hlong] at h
    cases hmisuse : req.misuse with
    | some reason =>
      rw [hmisuse] at h
      cases h
      exact .misuse hname hmisuse
    | none =>
      simp only [hmisuse, if_neg hcount] at h
      split at h
      · rename_i hrefused
        obtain ⟨⟨width, hmemory⟩, hscale⟩ := hbad.mp hrefused
        cases h
        exact .scale hname hmisuse hmemory hscale
      · cases h
  · intro h
    cases h with
    | mnemonic hlong =>
      have hlong : bufferSize < req.mnemonic.utf8ByteSize := hlong
      rw [if_pos hlong]
      rfl
    | misuse hname hmisuse =>
      have hname : ¬ bufferSize < req.mnemonic.utf8ByteSize := Nat.not_lt.mpr hname
      rw [if_neg hname, hmisuse]
    | scale hname hmisuse hmemory hscale =>
      have hname : ¬ bufferSize < req.mnemonic.utf8ByteSize := Nat.not_lt.mpr hname
      simp only [if_neg hname, hmisuse, if_neg hcount, if_pos (hbad.mpr ⟨⟨_, hmemory⟩, hscale⟩)]

theorem rejection?_eq_none (hreq : req.operands.Packed)
    (h : ∀ failure, ¬ req.RejectedFor failure) : req.rejection? = none := by
  rw [Option.eq_none_iff_forall_ne_some]
  intro failure hrejected
  exact h failure ((rejection?_eq_some_iff hreq).mp hrejected)

/-- The slots end before their number could be a reason. -/
theorem rejection?_ne_operandCount (hreq : req.operands.Packed) (count : UInt64) :
    req.rejection? ≠ some (.operandCount count) := by
  intro h
  cases (rejection?_eq_some_iff hreq).mp h

theorem rejection?_isLocal (h : req.rejection? = some failure) : failure.isLocal := by
  rw [Request.rejection?] at h
  split at h
  · cases h
    rfl
  split at h
  · cases h
    rfl
  split at h
  · cases h
    rfl
  split at h <;> cases h
  rfl

end Request

end MachineCode
