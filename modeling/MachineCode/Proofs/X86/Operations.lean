import MachineCode.Proofs.X86.Readings
import Mathlib.Tactic.IntervalCases

/-!
# Operations on data read back

One theorem for each family of operations that compute or move data: a layout of the family is read
back, whatever follows it, as the operation that was laid out, with its operands and with the
operand size of the setting.
-/

namespace MachineCode.X86

open Decoder

/-! ### Opcodes -/

theorem aluOf_digit (op : AluOp) : aluOf op.digit = some op := by
  cases op <;> rfl

theorem shiftOf_digit (op : ShiftOp) : shiftOf op.digit = some op := by
  cases op <;> rfl

theorem sizedOpcode_alu (op : AluOp) :
    SizedOpcode (8 * op.digit) fun ctx size => readPair ctx (.alu op) size false :=
  .of_pair (by cases op <;> decide) fun _ _ => by cases op <;> exact ⟨rfl, rfl⟩

theorem sizedOpcode_alu_load (op : AluOp) :
    SizedOpcode (8 * op.digit + 2) fun ctx size => readPair ctx (.alu op) size true :=
  .of_pair (by cases op <;> decide) fun _ _ => by cases op <;> exact ⟨rfl, rfl⟩

theorem sizedOpcode_alu_accumulator (op : AluOp) :
    SizedOpcode (8 * op.digit + 4) fun _ size =>
      readRegisterImmediate (.alu op) size (.general size 0) size.immediateBits :=
  .of_pair (by cases op <;> decide) fun _ _ => by cases op <;> exact ⟨rfl, rfl⟩

theorem sizedOpcode_alu_immediate :
    SizedOpcode 0x80 fun ctx size => readGroup ctx (aluEntry size size.immediateBits) [] :=
  .of_pair (by decide) fun _ _ => ⟨rfl, rfl⟩

theorem sizedOpcode_test :
    SizedOpcode 0x84 fun ctx size => readPair ctx .test size false :=
  .of_pair (by decide) fun _ _ => ⟨rfl, rfl⟩

theorem sizedOpcode_test_accumulator :
    SizedOpcode 0xA8 fun _ size =>
      readRegisterImmediate .test size (.general size 0) size.immediateBits :=
  .of_pair (by decide) fun _ _ => ⟨rfl, rfl⟩

theorem sizedOpcode_mov :
    SizedOpcode 0x88 fun ctx size => readPair ctx .mov size false :=
  .of_pair (by decide) fun _ _ => ⟨rfl, rfl⟩

theorem sizedOpcode_mov_load :
    SizedOpcode 0x8A fun ctx size => readPair ctx .mov size true :=
  .of_pair (by decide) fun _ _ => ⟨rfl, rfl⟩

theorem sizedOpcode_mov_immediate :
    SizedOpcode 0xC6 fun ctx size =>
      readGroup ctx (onlyEntry ⟨.mov, size, some size.immediateBits⟩) [] :=
  .of_pair (by decide) fun _ _ => ⟨rfl, rfl⟩

theorem sizedOpcode_unary :
    SizedOpcode 0xF6 fun ctx size => readGroup ctx (unaryEntry size) [] :=
  .of_pair (by decide) fun _ _ => ⟨rfl, rfl⟩

theorem sizedOpcode_step :
    SizedOpcode 0xFE fun ctx size => readGroup ctx (stepEntry ctx size) [] :=
  .of_pair (by decide) fun _ _ => ⟨rfl, rfl⟩

theorem sizedOpcode_shift_immediate :
    SizedOpcode 0xC0 fun ctx size => readGroup ctx (shiftEntry size (some 8)) [] :=
  .of_pair (by decide) fun _ _ => ⟨rfl, rfl⟩

theorem sizedOpcode_shift_register :
    SizedOpcode 0xD2 fun ctx size =>
      readGroup ctx (shiftEntry size none) [.reg (.general .byte 1)] :=
  .of_pair (by decide) fun _ _ => ⟨rfl, rfl⟩

theorem readTwoByte_eq (ctx : Context) (bytes : List UInt8) :
    readTwoByte ctx (0x05 :: bytes) = some (⟨.system .syscall, ctx.size, []⟩, bytes)
      ∧ readTwoByte ctx (0xA2 :: bytes) = some (⟨.system .cpuid, ctx.size, []⟩, bytes)
      ∧ readTwoByte ctx (0xAF :: bytes) = readPair ctx .imul ctx.size true bytes := by
  simp only [readTwoByte, readField_one_cons, Option.bind_eq_bind, Option.bind_some]
  refine ⟨?_, ?_, ?_⟩ <;> rw [if_neg (by decide)] <;> rfl

/-! ### Arithmetic and moves -/

section Families

variable {setting : Setting} {ops : List Operand} {layout : Layout}

theorem aluByteForm_readsBack {op : AluOp} {target : RegOrMem} {value : UInt64} {bits : UInt8}
    (htarget : target.Fits setting.size) (hsize : setting.size ≠ .byte) (hbits : bits = 8)
    (h : setting.modRmForm 0x83 (.digit op.digit) target (immediateBytes value bits)
      = .ok layout) :
    ReadsBack setting.mode layout (.alu op) setting.size
      [target.operand.expected setting.mode, (Operand.imm value bits).expected setting.mode] := by
  obtain ⟨ctx, fields, hselects, hshows, hdecode⟩ :=
    decode_withModRm h (by cases setting.mode <;> decide)
  subst hbits
  have hentry : aluEntry ctx.size 8 op.digit
      = some ⟨.alu op, setting.size, some (8 : UInt8).toNat⟩ := by
    rw [aluEntry, aluOf_digit, hselects.size_eq hsize]
    rfl
  intro rest
  rw [hdecode, ← hselects.mode]
  exact readGroup_of_shows_immediate hshows htarget (by decide) hentry value rest

theorem alu_readsBack {op : AluOp} (h : setting.alu op ops = .ok layout) :
    ReadsBack setting.mode layout (.alu op) setting.size
      (ops.map (Operand.expected setting.mode)) := by
  unfold Setting.alu at h
  split at h
  · exact regPairForm_readsBack (sizedOpcode_alu op) h
  · exact regPairForm_readsBack (sizedOpcode_alu op) h
  · exact regPairForm_readsBack (sizedOpcode_alu_load op) h
  · rename_i dst value bits
    obtain ⟨target, htarget, hrest⟩ := bind_eq_ok.mp h
    obtain ⟨rfl, hfits⟩ := checkRegOrMem_eq_ok htarget
    dsimp only at hrest
    split at hrest
    · rename_i hbits
      have hdvd : 8 ∣ bits.toNat := eight_dvd_of_immediateBits hbits
      split at hrest
      · rename_i haccumulator
        exact accumulatorForm_readsBack (sizedOpcode_alu_accumulator op) hfits haccumulator hbits
          hrest
      · have hentry : aluEntry setting.size setting.size.immediateBits op.digit
            = some ⟨.alu op, setting.size, some bits.toNat⟩ := by
          rw [aluEntry, aluOf_digit, hbits]
          rfl
        exact groupImmediateForm_readsBack sizedOpcode_alu_immediate hentry hdvd hfits hrest
    · rename_i hbits
      split at hrest
      · rename_i height
        have hsize : setting.size ≠ .byte := by
          intro hbyte
          exact hbits (by rw [hbyte, height]; rfl)
        exact aluByteForm_readsBack hfits hsize height hrest
      · simp at hrest
  · simp at h
  · simp at h

theorem regOrMemImmediate_readsBack {operation : Operation} {opcode : Nat}
    {entryOf : OperandSize → Nat → Option GroupEntry} {digit : Fin 8} {dst : Operand}
    {value : UInt64} {bits : UInt8}
    (hopcode : SizedOpcode opcode fun ctx size => readGroup ctx (entryOf size) [])
    (hentry : ∀ size : OperandSize,
      entryOf size digit = some ⟨operation, size, some size.immediateBits⟩)
    (hbits : bits.toNat = setting.size.immediateBits) {target : RegOrMem}
    (htarget : setting.regOrMem dst = .ok target)
    (h : setting.modRmForm (opcode + setting.size.wideBit) (.digit digit) target
      (immediateBytes value bits) = .ok layout) :
    ReadsBack setting.mode layout operation setting.size
      [dst.expected setting.mode, (Operand.imm value bits).expected setting.mode] := by
  obtain ⟨rfl, hfits⟩ := checkRegOrMem_eq_ok htarget
  have hdvd : 8 ∣ bits.toNat := eight_dvd_of_immediateBits hbits
  exact groupImmediateForm_readsBack hopcode (by rw [hentry, hbits]) hdvd hfits h

theorem movImmediate_readsBack {dst : Operand} {value : UInt64} {bits : UInt8}
    (h : setting.movImmediate dst value bits = .ok layout) :
    ReadsBack setting.mode layout .mov setting.size
      [dst.expected setting.mode, (Operand.imm value bits).expected setting.mode] := by
  unfold Setting.movImmediate at h
  split at h
  · rename_i hbits
    obtain ⟨target, htarget, hrest⟩ := bind_eq_ok.mp h
    exact regOrMemImmediate_readsBack sizedOpcode_mov_immediate (fun _ => rfl) hbits htarget hrest
  · simp at h

/-- MOV of an immediate as wide as the register, behind the opcode that holds the register. -/
theorem movRegister_readsBack {dst : Register} {value : UInt64} {bits : UInt8}
    (hbits : bits.toNat = setting.size.bits) (hdst : dst.Fits setting.size)
    (h : withoutModRm setting.mode setting.size (setting.size = .qword)
      (0xB0 + 8 * setting.size.wideBit) (some dst) (immediateBytes value bits) = .ok layout) :
    ReadsBack setting.mode layout .mov setting.size
      [.reg dst, (Operand.imm value bits).expected setting.mode] := by
  have hdvd : 8 ∣ bits.toNat := by
    rw [hbits]
    exact setting.size.eight_dvd_bits
  have hplain : ∀ code < 8,
      ¬IsPrefix setting.mode (UInt8.ofNat (0xB0 + 8 * setting.size.wideBit + code)) := by
    intro code hcode
    cases setting.mode <;> cases setting.size <;> interval_cases code <;> decide
  obtain ⟨ctx, code, hcode, hselects, hreg, hdecode⟩ :=
    decode_opcodeRegister (by cases setting.size <;> decide) (by cases setting.size <;> decide) h
      hplain hdst
  -- The row B0 is read as bytes under every context, the row B8 in the size of the context.
  have hread : ∀ bytes, readOpcode ctx (0xB0 + 8 * setting.size.wideBit + code) bytes
      = readRegisterImmediate .mov setting.size dst bits.toNat bytes := by
    intro bytes
    rw [hbits, ← hreg]
    by_cases hsize : setting.size = .byte
    · rw [hsize]
      interval_cases code <;> rfl
    · rw [OperandSize.wideBit_of_ne_byte hsize, ← hselects.size_eq hsize]
      interval_cases code <;> rfl
  intro rest
  rw [hdecode, hread]
  exact readRegisterImmediate_immediateBytes hdvd .mov setting.size dst value setting.mode rest

theorem mov_readsBack (h : setting.mov ops = .ok layout) :
    ReadsBack setting.mode layout .mov setting.size (ops.map (Operand.expected setting.mode)) := by
  unfold Setting.mov at h
  split at h
  · exact regPairForm_readsBack sizedOpcode_mov h
  · exact regPairForm_readsBack sizedOpcode_mov h
  · exact regPairForm_readsBack sizedOpcode_mov_load h
  · split at h
    · rename_i hbits
      obtain ⟨checked, hchecked, hrest⟩ := bind_eq_ok.mp h
      obtain ⟨rfl, hfits⟩ := checkRegister_eq_ok hchecked
      exact movRegister_readsBack hbits hfits hrest
    · exact movImmediate_readsBack h
  · exact movImmediate_readsBack h
  · simp at h
  · simp at h

theorem lea_readsBack (h : setting.lea ops = .ok layout) :
    ReadsBack setting.mode layout .lea setting.size (ops.map (Operand.expected setting.mode)) := by
  unfold Setting.lea at h
  split at h
  · rename_i dst src
    split at h
    · simp at h
    rename_i hsize
    obtain ⟨checked, hchecked, hrest⟩ := bind_eq_ok.mp h
    obtain ⟨rfl, hfits⟩ := checkRegister_eq_ok hchecked
    obtain ⟨ctx, fields, hselects, hshows, hdecode⟩ :=
      decode_withModRm hrest (by cases setting.mode <;> decide)
    obtain ⟨number, hread, hnumber⟩ := readModRm_of_shows_memory hshows
    intro rest
    have hlea : readOpcode ctx 0x8D (fields ++ rest)
        = some (⟨.lea, ctx.size, [.reg (ctx.register ctx.size number),
            .mem (src.effective ctx.mode)]⟩, rest) := by
      simp only [readOpcode, hread rest, Option.bind_eq_bind, Option.bind_some]
      rfl
    rw [hselects.size_eq hsize, hnumber checked setting.size rfl hfits, hselects.mode] at hlea
    rw [hdecode]
    exact hlea
  · simp at h
  · simp at h

theorem test_readsBack (h : setting.test ops = .ok layout) :
    ReadsBack setting.mode layout .test setting.size
      (Operation.test.expected setting.mode ops) := by
  unfold Setting.test at h
  split at h
  · exact regPairForm_readsBack sizedOpcode_test h
  · exact regPairForm_readsBack sizedOpcode_test h
  · exact regPairForm_readsBack sizedOpcode_test h
  · rename_i left value bits
    split at h
    · rename_i hbits
      obtain ⟨target, htarget, hrest⟩ := bind_eq_ok.mp h
      have hexpected : Operation.test.expected setting.mode [left, .imm value bits]
          = [left.expected setting.mode, (Operand.imm value bits).expected setting.mode] := by
        cases left <;> rfl
      rw [hexpected]
      dsimp only at hrest
      split at hrest
      · rename_i haccumulator
        obtain ⟨rfl, hfits⟩ := checkRegOrMem_eq_ok htarget
        exact accumulatorForm_readsBack sizedOpcode_test_accumulator hfits haccumulator hbits hrest
      · exact regOrMemImmediate_readsBack sizedOpcode_unary (fun _ => rfl) hbits htarget hrest
    · simp at h
  · simp at h
  · simp at h

/-! ### One operand -/

theorem unary_readsBack {op : UnaryOp} (h : setting.unary op ops = .ok layout) :
    ReadsBack setting.mode layout (.unary op) setting.size
      (ops.map (Operand.expected setting.mode)) := by
  unfold Setting.unary at h
  split at h
  · obtain ⟨target, htarget, hrest⟩ := bind_eq_ok.mp h
    obtain ⟨rfl, hfits⟩ := checkRegOrMem_eq_ok htarget
    exact groupForm_readsBack sizedOpcode_unary (fun _ => by cases op <;> rfl) hfits hrest
  · simp at h

theorem stepGroup_readsBack {op : StepOp} {target : RegOrMem} (htarget : target.Fits setting.size)
    (h : setting.modRmForm (0xFE + setting.size.wideBit) (.digit op.digit) target = .ok layout) :
    ReadsBack setting.mode layout (.step op) setting.size
      [target.operand.expected setting.mode] :=
  groupForm_readsBack sizedOpcode_step (fun _ => by cases op <;> rfl) htarget h

/-- The short forms of INC and DEC, whose bytes are no prefixes in 32-bit mode. -/
theorem stepRegister_readsBack {op : StepOp} {reg : Register} (hmode : setting.mode = .mode32)
    (hsize : setting.size ≠ .byte) (hreg : checkRegister setting.mode setting.size reg = .ok reg)
    (h : withoutModRm setting.mode setting.size false (0x40 + 8 * op.digit) (some reg)
      = .ok layout) :
    ReadsBack setting.mode layout (.step op) setting.size [.reg reg] := by
  have hplain : ∀ code < 8, ¬IsPrefix setting.mode (UInt8.ofNat (0x40 + 8 * op.digit + code)) := by
    intro code hcode
    rw [hmode]
    cases op <;> interval_cases code <;> decide
  obtain ⟨ctx, code, hcode, hselects, hregister, hdecode⟩ :=
    decode_opcodeRegister (by cases op <;> decide) (by cases op <;> decide) h hplain
      (checkRegister_eq_ok hreg).2
  -- The form sets no REX.W, and needs none, since 32-bit mode has no register of 64 bits.
  have hqword : setting.size ≠ .qword := ne_qword_of_checkRegister (hmode ▸ hreg)
  have hwide : ctx.size = setting.size := by
    rw [Context.size, hselects.wide, hselects.operandPrefix]
    cases hsetting : setting.size <;> simp_all
  intro rest
  rw [hdecode, ← hregister, ← hwide]
  cases op <;> interval_cases code <;> rfl

theorem step_readsBack {op : StepOp} (h : setting.step op ops = .ok layout) :
    ReadsBack setting.mode layout (.step op) setting.size
      (ops.map (Operand.expected setting.mode)) := by
  unfold Setting.step at h
  split at h
  · obtain ⟨target, htarget, hrest⟩ := bind_eq_ok.mp h
    obtain ⟨rfl, hfits⟩ := checkRegOrMem_eq_ok htarget
    cases target with
    | reg reg =>
      dsimp only at hrest
      split at hrest
      · rename_i hshort
        obtain ⟨checked, hchecked, hsame⟩ := bind_eq_ok.mp htarget
        cases hsame
        exact stepRegister_readsBack hshort.1 hshort.2 hchecked hrest
      · exact stepGroup_readsBack hfits hrest
    | mem mem => exact stepGroup_readsBack hfits hrest
  · simp at h

theorem shift_readsBack {op : ShiftOp} (h : setting.shift op ops = .ok layout) :
    ReadsBack setting.mode layout (.shift op) setting.size
      (ops.map (Operand.expected setting.mode)) := by
  unfold Setting.shift at h
  split at h
  · obtain ⟨target, htarget, hrest⟩ := bind_eq_ok.mp h
    obtain ⟨rfl, hfits⟩ := checkRegOrMem_eq_ok htarget
    split at hrest
    · rename_i value bits
      split at hrest
      · rename_i hbits
        subst hbits
        have hentry : shiftEntry setting.size (some 8) op.digit
            = some ⟨.shift op, setting.size, some (8 : UInt8).toNat⟩ := by
          rw [shiftEntry, shiftOf_digit]
          rfl
        exact groupImmediateForm_readsBack sizedOpcode_shift_immediate hentry (by decide) hfits
          hrest
      · simp at hrest
    · split at hrest
      · rename_i hcl
        subst hcl
        have hentry : shiftEntry setting.size none op.digit
            = some ⟨.shift op, setting.size, none⟩ := by
          rw [shiftEntry, shiftOf_digit]
          rfl
        exact groupForm_readsBack sizedOpcode_shift_register (fun _ => hentry) hfits hrest
      · simp at hrest
    · simp at hrest
  · simp at h

/-! ### Multiplication -/

theorem imulPair_readsBack {dst : Register} {target : RegOrMem} (hsize : setting.size ≠ .byte)
    (hdst : dst.Fits setting.size) (htarget : target.Fits setting.size)
    (h : withModRm setting.mode setting.size (setting.size = .qword) [0x0F, 0xAF] (.reg dst)
      target = .ok layout) :
    ReadsBack setting.mode layout .imul setting.size
      [.reg dst, target.operand.expected setting.mode] := by
  obtain ⟨ctx, fields, hselects, hshows, hdecode⟩ :=
    decode_withModRm h (by cases setting.mode <;> decide)
  intro rest
  have hread : readOpcode ctx (0x0F : UInt8).toNat ([0xAF] ++ (fields ++ rest))
      = readPair ctx .imul ctx.size true (fields ++ rest) := (readTwoByte_eq ctx _).2.2
  rw [hdecode, ← hselects.mode, List.nil_append, hread, hselects.size_eq hsize]
  exact readPair_of_shows hshows hdst htarget .imul true rest

theorem imulImmediate_readsBack {opcode : Nat} {dst : Register} {target : RegOrMem}
    {value : UInt64} {bits : UInt8} (hsize : setting.size ≠ .byte)
    (hopcode : opcode = 0x6B ∧ bits = 8
      ∨ opcode = 0x69 ∧ bits.toNat = setting.size.immediateBits)
    (hdst : dst.Fits setting.size) (htarget : target.Fits setting.size)
    (h : setting.modRmForm opcode (.reg dst) target (immediateBytes value bits) = .ok layout) :
    ReadsBack setting.mode layout .imul setting.size
      [.reg dst, target.operand.expected setting.mode,
        (Operand.imm value bits).expected setting.mode] := by
  have hplain : ¬IsPrefix setting.mode (UInt8.ofNat opcode) := by
    rcases hopcode with ⟨rfl, -⟩ | ⟨rfl, -⟩ <;> cases setting.mode <;> decide
  have hdvd : 8 ∣ bits.toNat := by
    rcases hopcode with ⟨-, rfl⟩ | ⟨-, hbits⟩
    · decide
    · exact eight_dvd_of_immediateBits hbits
  obtain ⟨ctx, fields, hselects, hshows, hdecode⟩ := decode_withModRm h hplain
  have hread : ∀ bytes, readOpcode ctx (UInt8.ofNat opcode).toNat bytes
      = readTriple ctx .imul bits.toNat bytes := by
    intro bytes
    rcases hopcode with ⟨rfl, rfl⟩ | ⟨rfl, hbits⟩
    · rfl
    · rw [hbits, ← hselects.size_eq hsize]
      rfl
  rw [← hselects.size_eq hsize] at hdst htarget ⊢
  rw [← hselects.mode]
  intro rest
  rw [hselects.mode, hdecode, hread, ← hselects.mode]
  exact readTriple_of_shows hshows hdst htarget hdvd .imul value rest

theorem imul_readsBack (h : setting.imul ops = .ok layout) :
    ReadsBack setting.mode layout .imul setting.size
      (ops.map (Operand.expected setting.mode)) := by
  unfold Setting.imul at h
  split at h
  · simp at h
  rename_i hsize
  split at h
  · obtain ⟨dst, hdst, hrest⟩ := bind_eq_ok.mp h
    obtain ⟨target, htarget, hform⟩ := bind_eq_ok.mp hrest
    obtain ⟨rfl, hdstFits⟩ := checkRegister_eq_ok hdst
    obtain ⟨rfl, htargetFits⟩ := checkRegOrMem_eq_ok htarget
    exact imulPair_readsBack hsize hdstFits htargetFits hform
  · obtain ⟨dst, hdst, hrest⟩ := bind_eq_ok.mp h
    obtain ⟨target, htarget, hform⟩ := bind_eq_ok.mp hrest
    obtain ⟨rfl, hdstFits⟩ := checkRegister_eq_ok hdst
    obtain ⟨rfl, htargetFits⟩ := checkRegOrMem_eq_ok htarget
    dsimp only at hform
    split at hform
    · rename_i hbyte
      exact imulImmediate_readsBack hsize (.inl ⟨rfl, hbyte⟩) hdstFits htargetFits hform
    · split at hform
      · rename_i hbits
        exact imulImmediate_readsBack hsize (.inr ⟨rfl, hbits⟩) hdstFits htargetFits hform
      · simp at hform
  · simp at h
  · simp at h
  · simp at h

end Families

end MachineCode.X86
