import MachineCode.Proofs.X86.ReadBack

/-!
# The operand size of an instruction

A sized operation is executed in the size that was asked for, with one exception. PUSH of a byte is
written without the prefix 66, so at 16 bits it moves the stack pointer by a whole word of the mode.
-/

namespace MachineCode.X86

namespace Setting

variable {setting : Setting}

theorem size_eq_word_iff {mode : Mode} {bits : UInt8} (h : ofBits mode bits = .ok setting) :
    setting.size = .word ↔ bits = 16 := by
  have hbits : bits = 16 ↔ bits.toNat = 16 := by
    rw [← UInt8.toNat_inj]
    rfl
  unfold ofBits at h
  rw [hbits]
  split at h <;> cases h <;> simp_all

/-- The stack size differs from that of the mode at 16 bits only. -/
theorem branchSize_eq_iff {size : OperandSize} (h : setting.stackSize = .ok size) :
    setting.branchSize = size ↔ setting.size ≠ .word := by
  obtain ⟨mode, settingSize⟩ := setting
  cases mode <;> cases settingSize <;> cases h <;> simp [branchSize]

end Setting

theorem Encoded.selectedSize_eq_iff {inst : Instruction} {bytes : List UInt8}
    {operation : Operation} {ops : List Operand} {setting : Setting} {layout : Layout}
    {selected : OperandSize} (hencoded : Encoded inst bytes operation ops setting layout)
    (hselected : operation.selectedSize setting ops = .ok selected) :
    ∃ requested, operation.requestedSize setting = .ok requested
      ∧ (selected = requested ↔ ¬DropsSize operation ops inst.operandBits)
      ∧ (DropsSize operation ops inst.operandBits → selected = setting.branchSize) := by
  rw [Operation.selectedSize] at hselected
  obtain ⟨requested, hrequested, hsize⟩ := bind_eq_ok.mp hselected
  refine ⟨requested, hrequested, ?_⟩
  have hword := Setting.size_eq_word_iff hencoded.setting_eq
  by_cases hbyte : operation = .push ∧ ops.any Operand.isByteImmediate
  · rw [if_pos hbyte] at hsize
    cases hsize
    obtain ⟨rfl, himmediate⟩ := hbyte
    have hiff := Setting.branchSize_eq_iff (show setting.stackSize = .ok requested from hrequested)
    refine ⟨?_, fun _ => rfl⟩
    rw [hiff, Ne, hword, DropsSize]
    simp [himmediate]
  · rw [if_neg hbyte] at hsize
    cases hsize
    have hkeeps : ¬DropsSize operation ops inst.operandBits := by
      rintro ⟨hpush, himmediate, -⟩
      exact hbyte ⟨hpush, himmediate⟩
    exact ⟨⟨fun _ => hkeeps, fun _ => rfl⟩, fun hdrops => absurd hdrops hkeeps⟩

section Instructions

variable {inst : Instruction} {size count : Nat} {buffer : Vector UInt8 size}

/-- **The bytes select the size that was asked for, except in PUSH of a byte at 16 bits.** There
they select the size of the mode. -/
theorem size_decoded_eq_requested_iff {operation : Operation}
    (hclass : (mnemonic? inst.cls).map Prod.snd = some operation) (hsized : operation.isSized)
    (hemit : (emit inst buffer).1 = .ok count) :
    ∃ ops setting requested decoded,
      inst.requested.mapM readOperand = .ok ops
        ∧ Setting.ofBits inst.mode inst.operandBits = .ok setting
        ∧ operation.requestedSize setting = .ok requested
        ∧ (∀ rest, decode inst.mode (produced inst buffer count ++ rest) = some (decoded, rest))
        ∧ decoded.operation = operation
        ∧ (decoded.size = requested ↔ ¬DropsSize operation ops inst.operandBits)
        ∧ (DropsSize operation ops inst.operandBits → decoded.size = setting.branchSize) := by
  obtain ⟨named, ops, setting, layout, hencoded⟩ :=
    exists_encoded_of_encode (encode_eq_of_emit hemit)
  obtain rfl : named = operation := by
    rw [hencoded.operation_eq] at hclass
    exact Option.some.inj hclass
  obtain ⟨selected, hdecode, hselected⟩ := hencoded.decode_append
  obtain ⟨requested, hrequested, hsize, hdrops⟩ :=
    hencoded.selectedSize_eq_iff (hselected hsized)
  exact ⟨ops, setting, requested, _, hencoded.operands_eq, hencoded.setting_eq, hrequested,
    hdecode, rfl, hsize, hdrops⟩

/-- IMUL CX, DX, 5 with an immediate of one byte. -/
def imulWord : Instruction where
  mode := .mode64
  cls := ⟨23⟩
  operandBits := 16
  requested := [.reg ⟨34⟩, .reg ⟨35⟩, .unsigned 5 8]

theorem size_decoded_imulWord :
    (emit imulWord (Vector.replicate 15 0)).1 = .ok 4
      ∧ ∃ decoded,
        (∀ rest, decode .mode64 (produced imulWord (Vector.replicate 15 0) 4 ++ rest)
            = some (decoded, rest))
          ∧ decoded.operation = .imul ∧ decoded.size = .word := by
  have hemit : (emit imulWord (Vector.replicate 15 0)).1 = .ok 4 := rfl
  have hclass : (mnemonic? imulWord.cls).map Prod.snd = some .imul := rfl
  obtain ⟨ops, setting, requested, decoded, -, hsetting, hrequested, hdecode, hoperation, hsize,
    -⟩ := size_decoded_eq_requested_iff hclass rfl hemit
  cases hsetting
  cases hrequested
  exact ⟨hemit, decoded, hdecode, hoperation, hsize.mpr (fun hdrops => nomatch hdrops.1)⟩

/-- PUSH 5 with an immediate of one byte. -/
def pushByte : Instruction where
  mode := .mode64
  cls := ⟨21⟩
  operandBits := 16
  requested := [.unsigned 5 8]

/-- PUSH 5 at 16 bits asks for a word, and its two bytes push eight bytes in 64-bit mode. -/
theorem exists_size_decoded_ne_requested :
    ∃ (inst : Instruction) (setting : Setting) (decoded : Decoded),
      (mnemonic? inst.cls).map Prod.snd = some .push
        ∧ (emit inst (Vector.replicate 15 0)).1 = .ok 2
        ∧ Setting.ofBits inst.mode inst.operandBits = .ok setting
        ∧ Operation.requestedSize .push setting = .ok .word
        ∧ decode inst.mode (produced inst (Vector.replicate 15 0) 2) = some (decoded, [])
        ∧ decoded.size = .qword :=
  ⟨pushByte, ⟨.mode64, .word⟩, ⟨.push, .qword, [.imm 8 5]⟩, rfl, rfl, rfl, rfl, rfl, rfl⟩

end Instructions

end MachineCode.X86
