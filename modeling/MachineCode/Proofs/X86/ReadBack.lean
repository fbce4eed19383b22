import MachineCode.Proofs.X86.Branches
import MachineCode.X86.Meaning

/-!
# Instructions read back

Every layout of the engine is read back as the operation and operands it was made of, in the size
that the operation selects. The bytes of an instruction that is encoded are those of its layout, so
a processor that finds them, whatever stands behind them, executes what was asked for.
-/

namespace MachineCode.X86

open Decoder

/-! ### Layouts -/

/-- The operand size that the bytes of a sized operation select. It is the size of the setting, but
PUSH of a byte has the size of the mode. -/
def Operation.selectedSize (operation : Operation) (setting : Setting) (ops : List Operand) :
    Except RefusalCode OperandSize := do
  let size ← operation.requestedSize setting
  return if operation = .push ∧ ops.any Operand.isByteImmediate then setting.branchSize else size

theorem Operation.selectedSize_of_ne_push {operation : Operation} {setting : Setting}
    (hpush : operation ≠ .push) (ops : List Operand) :
    operation.selectedSize setting ops = operation.requestedSize setting := by
  simp only [selectedSize, hpush, false_and, if_false]
  exact bind_pure _

theorem layout_readsBack {setting : Setting} {operation : Operation} {ops : List Operand}
    {layout : Layout} (h : setting.layout operation ops = .ok layout) :
    ∃ size, ReadsBack setting.mode layout operation size (operation.expected setting.mode ops)
      ∧ (operation.isSized → operation.selectedSize setting ops = .ok size) := by
  cases operation with
  | alu op => exact ⟨_, alu_readsBack h, fun _ => rfl⟩
  | mov => exact ⟨_, mov_readsBack h, fun _ => rfl⟩
  | lea => exact ⟨_, lea_readsBack h, fun _ => rfl⟩
  | test => exact ⟨_, test_readsBack h, fun _ => rfl⟩
  | step op => exact ⟨_, step_readsBack h, fun _ => rfl⟩
  | unary op => exact ⟨_, unary_readsBack h, fun _ => rfl⟩
  | shift op => exact ⟨_, shift_readsBack h, fun _ => rfl⟩
  | imul => exact ⟨_, imul_readsBack h, fun _ => rfl⟩
  | push =>
    obtain ⟨size, hstack, hreads⟩ := push_readsBack h
    refine ⟨_, hreads, fun _ => ?_⟩
    simp [Operation.selectedSize, Operation.requestedSize, hstack]
  | pop =>
    obtain ⟨size, hstack, hreads⟩ := pop_readsBack h
    refine ⟨size, hreads, fun _ => ?_⟩
    exact (Operation.selectedSize_of_ne_push (by decide) ops).trans hstack
  | jmp =>
    obtain ⟨size, hreads⟩ := branch_readsBack (relativeOpcodes_jmp setting.mode) (by decide) h
    exact ⟨size, hreads, nofun⟩
  | call =>
    obtain ⟨size, hreads⟩ := branch_readsBack (relativeOpcodes_call setting.mode) (by decide) h
    exact ⟨size, hreads, nofun⟩
  | jumpIf condition =>
    obtain ⟨size, hreads⟩ := jumpIf_readsBack h
    exact ⟨size, hreads, nofun⟩
  | int =>
    obtain ⟨size, hreads⟩ := interruptForm_readsBack setting.mode h
    exact ⟨size, hreads, nofun⟩
  | system op =>
    obtain ⟨size, hreads⟩ := systemForm_readsBack setting.mode h
    exact ⟨size, hreads, nofun⟩

/-! ### What was encoded -/

/-- The parts that an instruction had when its bytes were encoded. -/
structure Encoded (inst : Instruction) (bytes : List UInt8) (operation : Operation)
    (ops : List Operand) (setting : Setting) (layout : Layout) : Prop where
  operation_eq : (mnemonic? inst.cls).map Prod.snd = some operation
  operands_eq : inst.requested.mapM readOperand = .ok ops
  setting_eq : Setting.ofBits inst.mode inst.operandBits = .ok setting
  layout_eq : setting.layout operation ops = .ok layout
  bytes_eq : bytes = layout.bytes

theorem exists_encoded_of_encode {inst : Instruction} {bytes : List UInt8}
    (h : encode inst = .ok bytes) :
    ∃ operation ops setting layout, Encoded inst bytes operation ops setting layout := by
  rw [encode] at h
  split at h
  · simp at h
  rename_i hcount
  -- An instruction that asks for more operands than it carries is never encoded.
  have hcarried : inst.operands = inst.requested := by
    apply List.take_of_length_le
    rw [Instruction.operandCount] at hcount
    omega
  split at h
  · rename_i layout hlayout
    cases h
    rw [layoutOf] at hlayout
    split at hlayout
    · simp at hlayout
    rename_i name operation hclass
    obtain ⟨ops, hops, hrest⟩ := bind_eq_ok.mp hlayout
    obtain ⟨setting, hsetting, hform⟩ := bind_eq_ok.mp hrest
    rw [hcarried] at hops
    exact ⟨operation, ops, setting, layout, by rw [hclass]; rfl, hops, hsetting, hform, rfl⟩
  · simp at h

theorem toList_take_overwrite {size : Nat} (buffer : Vector UInt8 size) {bytes : List UInt8}
    (hlength : bytes.length ≤ size) :
    (overwrite buffer bytes).toList.take bytes.length = bytes := by
  apply List.ext_getElem
  · simp only [List.length_take, Vector.length_toList]
    omega
  · intro index hindex hbytes
    simp [overwrite, hbytes]

theorem encode_eq_of_emit {inst : Instruction} {size count : Nat} {buffer : Vector UInt8 size}
    (h : (emit inst buffer).1 = .ok count) :
    encode inst = .ok (produced inst buffer count) := by
  rw [produced, emit] at *
  split at h
  · simp at h
  rename_i bytes hbytes
  split at h
  · rename_i hlength
    cases h
    simp only [hbytes, if_pos hlength]
    rw [toList_take_overwrite buffer hlength]
  · simp at h

theorem Setting.mode_of_ofBits {mode : Mode} {bits : UInt8} {setting : Setting}
    (h : Setting.ofBits mode bits = .ok setting) : setting.mode = mode := by
  unfold ofBits at h
  split at h <;> cases h <;> rfl

theorem Encoded.decode_append {inst : Instruction} {bytes : List UInt8} {operation : Operation}
    {ops : List Operand} {setting : Setting} {layout : Layout}
    (h : Encoded inst bytes operation ops setting layout) :
    ∃ size, (∀ rest, decode inst.mode (bytes ++ rest)
        = some (⟨operation, size, operation.expected inst.mode ops⟩, rest))
      ∧ (operation.isSized → operation.selectedSize setting ops = .ok size) := by
  obtain ⟨size, hreads, hsize⟩ := layout_readsBack h.layout_eq
  rw [Setting.mode_of_ofBits h.setting_eq] at hreads
  refine ⟨size, fun rest => ?_, hsize⟩
  rw [h.bytes_eq]
  exact hreads rest

/-! ### Addresses and the other operands -/

theorem readAddressRegister_eq_ok {id : RegisterId} {reg : Option Register}
    (h : readAddressRegister id = .ok reg) : reg = Register.ofId? id := by
  rw [readAddressRegister] at h
  split at h
  · rw [readRegister] at h
    split at h
    · rename_i hreg
      cases h
      exact hreg.symm
    · cases h
  · rename_i hinvalid
    cases h
    have hnumber : id = .invalid := by simpa [RegisterId.isValid] using hinvalid
    rw [hnumber]
    rfl

section Instructions

variable {inst : Instruction} {size count : Nat} {buffer : Vector UInt8 size}

end Instructions

end MachineCode.X86
