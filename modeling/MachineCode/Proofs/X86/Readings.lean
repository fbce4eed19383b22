import MachineCode.Proofs.X86.Forms

/-!
# Readings behind an opcode

What the readers of the decoder find behind an opcode once the bytes are known to show the operands
of a form, and the two forms of an opcode pair: the even opcode works on bytes, the odd one on the
size that the prefixes select.
-/

namespace MachineCode.X86

open Decoder

/-- The layout is read back, whatever follows it, as the given instruction. -/
def ReadsBack (mode : Mode) (layout : Layout) (operation : Operation) (size : OperandSize)
    (operands : List DecodedOperand) : Prop :=
  ∀ rest, decode mode (layout.bytes ++ rest) = some (⟨operation, size, operands⟩, rest)

/-! ### Immediates -/

theorem readImmediate_immediateBytes {bits : UInt8} (hbits : 8 ∣ bits.toNat) (value : UInt64)
    (mode : Mode) (rest : List UInt8) :
    readImmediate bits.toNat (immediateBytes value bits ++ rest)
      = some ((Operand.imm value bits).expected mode, rest) := by
  rw [readImmediate, immediateBytes, readField_littleEndian, Nat.mul_div_cancel' hbits]
  rfl

theorem OperandSize.eight_dvd_immediateBits (size : OperandSize) : 8 ∣ size.immediateBits := by
  cases size <;> decide

theorem eight_dvd_of_immediateBits {bits : UInt8} {size : OperandSize}
    (hbits : bits.toNat = size.immediateBits) : 8 ∣ bits.toNat := by
  rw [hbits]
  exact size.eight_dvd_immediateBits

theorem OperandSize.eight_dvd_bits (size : OperandSize) : 8 ∣ size.bits := by
  cases size <;> decide

/-! ### Operands -/

section Operands

variable {ctx : Context} {bytes : List UInt8} {target : RegOrMem} {size : OperandSize}

theorem readPair_of_shows {reg : Register} (hshows : ctx.Shows bytes (.reg reg) target)
    (hreg : reg.Fits size) (htarget : target.Fits size) (operation : Operation) (regFirst : Bool)
    (rest : List UInt8) :
    readPair ctx operation size regFirst (bytes ++ rest)
      = some (⟨operation, size,
          if regFirst then [.reg reg, target.operand.expected ctx.mode]
          else [target.operand.expected ctx.mode, .reg reg]⟩, rest) := by
  obtain ⟨number, shown, hread, hnumber, hshown⟩ := hshows
  simp only [readPair, hread, Option.bind_eq_bind, Option.bind_some, hnumber reg size rfl hreg,
    hshown size htarget]
  rfl

theorem readModRm_of_shows_memory {field : RegFieldUse} {mem : Memory}
    (hshows : ctx.Shows bytes field (.mem mem)) :
    ∃ number,
      (∀ rest, readModRm ctx (bytes ++ rest)
        = some (⟨field.code, number, .mem (mem.effective ctx.mode)⟩, rest))
      ∧ ∀ reg size, field = .reg reg → reg.Fits size → ctx.register size number = reg := by
  obtain ⟨number, shown, hread, hnumber, hshown⟩ := hshows
  have hmem : shown.operand ctx .byte = .mem (mem.effective ctx.mode) := hshown .byte trivial
  cases shown with
  | reg number' => cases hmem
  | mem address =>
    cases hmem
    exact ⟨number, hread, hnumber⟩

theorem readTriple_of_shows {reg : Register} (hshows : ctx.Shows bytes (.reg reg) target)
    (hreg : reg.Fits ctx.size) (htarget : target.Fits ctx.size) {bits : UInt8}
    (hbits : 8 ∣ bits.toNat) (operation : Operation) (value : UInt64) (rest : List UInt8) :
    readTriple ctx operation bits.toNat (bytes ++ (immediateBytes value bits ++ rest))
      = some (⟨operation, ctx.size,
          [.reg reg, target.operand.expected ctx.mode,
            (Operand.imm value bits).expected ctx.mode]⟩, rest) := by
  obtain ⟨number, shown, hread, hnumber, hshown⟩ := hshows
  simp only [readTriple, hread, readImmediate_immediateBytes hbits value ctx.mode,
    Option.bind_eq_bind, Option.bind_some, hnumber reg ctx.size rfl hreg, hshown ctx.size htarget]
  rfl

variable {digit : Fin 8} {entryOf : Nat → Option GroupEntry} {operation : Operation}

theorem readGroup_of_shows (hshows : ctx.Shows bytes (.digit digit) target)
    (htarget : target.Fits size) (hentry : entryOf digit = some ⟨operation, size, none⟩)
    (more : List DecodedOperand) (rest : List UInt8) :
    readGroup ctx entryOf more (bytes ++ rest)
      = some (⟨operation, size, target.operand.expected ctx.mode :: more⟩, rest) := by
  obtain ⟨number, shown, hread, -, hshown⟩ := hshows
  simp only [readGroup, hread, RegFieldUse.code, hentry, Option.bind_eq_bind, Option.bind_some,
    hshown size htarget]
  rfl

theorem readGroup_of_shows_immediate (hshows : ctx.Shows bytes (.digit digit) target)
    (htarget : target.Fits size) {bits : UInt8} (hbits : 8 ∣ bits.toNat)
    (hentry : entryOf digit = some ⟨operation, size, some bits.toNat⟩) (value : UInt64)
    (rest : List UInt8) :
    readGroup ctx entryOf [] (bytes ++ (immediateBytes value bits ++ rest))
      = some (⟨operation, size,
          [target.operand.expected ctx.mode, (Operand.imm value bits).expected ctx.mode]⟩,
          rest) := by
  obtain ⟨number, shown, hread, -, hshown⟩ := hshows
  simp only [readGroup, hread, RegFieldUse.code, hentry, Option.bind_eq_bind, Option.bind_some,
    hshown size htarget, readImmediate_immediateBytes hbits value ctx.mode]
  rfl

theorem readRegisterImmediate_immediateBytes {bits : UInt8} (hbits : 8 ∣ bits.toNat)
    (operation : Operation) (size : OperandSize) (reg : Register) (value : UInt64) (mode : Mode)
    (rest : List UInt8) :
    readRegisterImmediate operation size reg bits.toNat (immediateBytes value bits ++ rest)
      = some (⟨operation, size, [.reg reg, (Operand.imm value bits).expected mode]⟩, rest) := by
  simp only [readRegisterImmediate, readImmediate_immediateBytes hbits value mode,
    Option.bind_eq_bind, Option.bind_some]
  rfl

end Operands

/-! ### Opcodes in two sizes -/

/-- The even opcode and the odd one behind it are read alike, each with the size that it selects.
The byte 66 and the REX bytes are no opcodes. -/
structure SizedOpcode (opcode : Nat) (read : Context → OperandSize → List UInt8 → Result) :
    Prop where
  plain : opcode % 2 = 0 ∧ opcode / 16 ≠ 4 ∧ opcode ≠ 0x66 ∧ opcode < 256
  readOpcode_eq : ∀ (ctx : Context) (size : OperandSize) (bytes : List UInt8),
    readOpcode ctx (opcode + size.wideBit) bytes
      = read ctx (ctx.opcodeSize (opcode + size.wideBit)) bytes

theorem SizedOpcode.of_pair {opcode : Nat} {read : Context → OperandSize → List UInt8 → Result}
    (hplain : opcode % 2 = 0 ∧ opcode / 16 ≠ 4 ∧ opcode ≠ 0x66 ∧ opcode < 256)
    (hread : ∀ ctx bytes, readOpcode ctx opcode bytes = read ctx .byte bytes
      ∧ readOpcode ctx (opcode + 1) bytes = read ctx ctx.size bytes) :
    SizedOpcode opcode read := by
  refine ⟨hplain, fun ctx size bytes => ?_⟩
  obtain ⟨heven, -⟩ := hplain
  by_cases hsize : size = .byte
  · subst hsize
    have hwide : OperandSize.byte.wideBit = 0 := rfl
    rw [hwide, Nat.add_zero, Context.opcodeSize, if_pos heven]
    exact (hread ctx bytes).1
  · rw [OperandSize.wideBit_of_ne_byte hsize, Context.opcodeSize, if_neg (by omega)]
    exact (hread ctx bytes).2

namespace SizedOpcode

variable {opcode : Nat} {read : Context → OperandSize → List UInt8 → Result}
  (hopcode : SizedOpcode opcode read) (size : OperandSize)
include hopcode

theorem parity : (opcode + size.wideBit) % 2 = size.wideBit := by
  have hplain := hopcode.plain
  cases size <;> simp only [OperandSize.wideBit] <;> omega

theorem lt : opcode + size.wideBit < 256 := by
  have hplain := hopcode.plain
  cases size <;> simp only [OperandSize.wideBit] <;> omega

theorem toNat_ofNat : (UInt8.ofNat (opcode + size.wideBit)).toNat = opcode + size.wideBit := by
  rw [UInt8.toNat_ofNat', Nat.mod_eq_of_lt (hopcode.lt size)]

theorem not_isPrefix (mode : Mode) : ¬IsPrefix mode (UInt8.ofNat (opcode + size.wideBit)) := by
  have hplain := hopcode.plain
  have hwide : size.wideBit ≤ 1 := by
    cases size <;> decide
  exact not_isPrefix_of_toNat (hopcode.toNat_ofNat size) (by omega) mode

end SizedOpcode

section Sized

variable {setting : Setting} {opcode : Nat}
  {read : Context → OperandSize → List UInt8 → Result} {layout : Layout} {operation : Operation}

theorem SizedOpcode.decode_modRmForm (hopcode : SizedOpcode opcode read)
    {field : RegFieldUse} {target : RegOrMem} {immediate : List UInt8}
    (h : setting.modRmForm (opcode + setting.size.wideBit) field target immediate = .ok layout) :
    ∃ ctx fields, ctx.mode = setting.mode ∧ ctx.Shows fields field target
      ∧ ∀ rest, decode setting.mode (layout.bytes ++ rest)
          = read ctx setting.size (fields ++ (immediate ++ rest)) := by
  obtain ⟨ctx, fields, hselects, hshows, hdecode⟩ :=
    decode_withModRm h (hopcode.not_isPrefix setting.size setting.mode)
  refine ⟨ctx, fields, hselects.mode, hshows, fun rest => ?_⟩
  rw [hdecode, hopcode.toNat_ofNat, hopcode.readOpcode_eq,
    hselects.opcodeSize_eq (hopcode.parity setting.size)]
  rfl

theorem regPairForm_readsBack {regFirst : Bool} {reg : Register} {other : Operand}
    (hopcode : SizedOpcode opcode fun ctx size => readPair ctx operation size regFirst)
    (h : setting.regPairForm opcode reg other = .ok layout) :
    ReadsBack setting.mode layout operation setting.size
      (if regFirst then [.reg reg, other.expected setting.mode]
        else [other.expected setting.mode, .reg reg]) := by
  rw [Setting.regPairForm] at h
  obtain ⟨checked, hreg, hrest⟩ := bind_eq_ok.mp h
  obtain ⟨target, htarget, hform⟩ := bind_eq_ok.mp hrest
  obtain ⟨rfl, hregFits⟩ := checkRegister_eq_ok hreg
  obtain ⟨rfl, htargetFits⟩ := checkRegOrMem_eq_ok htarget
  obtain ⟨ctx, fields, hmode, hshows, hdecode⟩ := hopcode.decode_modRmForm hform
  intro rest
  rw [hdecode, ← hmode]
  exact readPair_of_shows hshows hregFits htargetFits operation regFirst rest

theorem RegOrMem.eq_accumulator {target : RegOrMem} {size : OperandSize}
    (hfits : target.Fits size) (h : target.isAccumulator) :
    target = .reg (.general size 0) := by
  cases target with
  | mem mem => simp [isAccumulator] at h
  | reg reg =>
    cases hfits with
    | general size number =>
      have hzero : number = 0 := Fin.ext (by simpa [isAccumulator, Register.number] using h)
      rw [hzero]
    | highByte number => simp [isAccumulator, Register.number] at h

/-- An accumulator form shows its register by the opcode alone. -/
theorem accumulatorForm_readsBack
    (hopcode : SizedOpcode opcode fun _ size =>
      readRegisterImmediate operation size (.general size 0) size.immediateBits)
    {target : RegOrMem} (htarget : target.Fits setting.size) (haccumulator : target.isAccumulator)
    {value : UInt64} {bits : UInt8} (hbits : bits.toNat = setting.size.immediateBits)
    (h : setting.accumulatorForm (opcode + setting.size.wideBit) (immediateBytes value bits)
      = .ok layout) :
    ReadsBack setting.mode layout operation setting.size
      [target.operand.expected setting.mode, (Operand.imm value bits).expected setting.mode] := by
  obtain ⟨ctx, hselects, hdecode⟩ :=
    decode_withoutRegister (hopcode.lt setting.size) h
      (hopcode.not_isPrefix setting.size setting.mode)
  have hdvd : 8 ∣ bits.toNat := eight_dvd_of_immediateBits hbits
  intro rest
  rw [hdecode, hopcode.readOpcode_eq, hselects.opcodeSize_eq (hopcode.parity setting.size),
    ← hbits, RegOrMem.eq_accumulator htarget haccumulator]
  exact readRegisterImmediate_immediateBytes hdvd operation setting.size _ value setting.mode rest

/-- A group form of the current size whose digit selects the operation. -/
theorem groupForm_readsBack {entryOf : Context → OperandSize → Nat → Option GroupEntry}
    {digit : Fin 8} {more : List DecodedOperand} {target : RegOrMem}
    (hopcode : SizedOpcode opcode fun ctx size => readGroup ctx (entryOf ctx size) more)
    (hentry : ∀ ctx, entryOf ctx setting.size digit = some ⟨operation, setting.size, none⟩)
    (htarget : target.Fits setting.size)
    (h : setting.modRmForm (opcode + setting.size.wideBit) (.digit digit) target = .ok layout) :
    ReadsBack setting.mode layout operation setting.size
      (target.operand.expected setting.mode :: more) := by
  obtain ⟨ctx, fields, hmode, hshows, hdecode⟩ := hopcode.decode_modRmForm h
  intro rest
  rw [hdecode, ← hmode]
  exact readGroup_of_shows hshows htarget (hentry ctx) more rest

theorem groupImmediateForm_readsBack {entryOf : OperandSize → Nat → Option GroupEntry}
    {digit : Fin 8} {target : RegOrMem} {value : UInt64} {bits : UInt8}
    (hopcode : SizedOpcode opcode fun ctx size => readGroup ctx (entryOf size) [])
    (hentry : entryOf setting.size digit = some ⟨operation, setting.size, some bits.toNat⟩)
    (hbits : 8 ∣ bits.toNat) (htarget : target.Fits setting.size)
    (h : setting.modRmForm (opcode + setting.size.wideBit) (.digit digit) target
      (immediateBytes value bits) = .ok layout) :
    ReadsBack setting.mode layout operation setting.size
      [target.operand.expected setting.mode, (Operand.imm value bits).expected setting.mode] := by
  obtain ⟨ctx, fields, hmode, hshows, hdecode⟩ := hopcode.decode_modRmForm h
  intro rest
  rw [hdecode, ← hmode]
  exact readGroup_of_shows_immediate hshows htarget hbits hentry value rest

end Sized

end MachineCode.X86
