import MachineCode.Proofs.X86.Addresses
import MachineCode.X86.Form

/-!
# Forms read back

The two shapes of an instruction, with a ModR/M byte and without one. For each shape one theorem
says under which context its opcode is read and what stands behind the opcode. The operations are
then read back from these theorems and the table of opcodes alone.
-/

namespace MachineCode.X86

open Decoder

/-! ### Registers of a size -/

/-- The register can be an operand of the given size. -/
inductive Register.Fits : OperandSize → Register → Prop where
  | general (size : OperandSize) (number : Fin 16) : Fits size (.general size number)
  | highByte (number : Fin 4) : Fits .byte (.highByte number)

theorem checkRegister_eq_ok {mode : Mode} {size : OperandSize} {reg checked : Register}
    (h : checkRegister mode size reg = .ok checked) : checked = reg ∧ reg.Fits size := by
  rw [checkRegister] at h
  split at h
  · simp at h
  rename_i hkind
  split at h
  · simp at h
  split at h
  · simp at h
  rename_i hbits
  cases h
  refine ⟨rfl, ?_⟩
  cases reg with
  | general width number =>
    have hsize : width = size := by
      cases width <;> cases size <;> simp_all [Register.bits, OperandSize.bits]
    subst hsize
    exact .general width number
  | highByte number =>
    have hsize : size = .byte := by
      cases size <;> simp_all [Register.bits, OperandSize.bits]
    subst hsize
    exact .highByte number
  | _ => simp [Register.isGeneral, Register.isHighByte] at hkind

theorem ne_qword_of_checkRegister {size : OperandSize} {reg checked : Register}
    (h : checkRegister .mode32 size reg = .ok checked) : size ≠ .qword := by
  rintro rfl
  rw [checkRegister] at h
  split at h
  · simp at h
  split at h
  · simp at h
  rename_i hmode
  split at h
  · simp at h
  rename_i hbits
  simp_all [OperandSize.bits]

/-- What a mode asks of a register operand: 32-bit mode has no register that is 64 bits wide or
needs a REX prefix. -/
theorem checkRegister_eq_ok_iff {mode : Mode} {size : OperandSize} {reg checked : Register} :
    checkRegister mode size reg = .ok checked
      ↔ checked = reg ∧ reg.Fits size
        ∧ (mode = .mode32 → size ≠ .qword ∧ reg.isExtended = false ∧ reg.needsRex = false) := by
  constructor
  · intro h
    obtain ⟨rfl, hfits⟩ := checkRegister_eq_ok h
    refine ⟨rfl, hfits, ?_⟩
    rintro rfl
    refine ⟨ne_qword_of_checkRegister h, ?_⟩
    rw [checkRegister] at h
    split at h
    · cases h
    split at h
    · cases h
    rename_i hmode
    simp_all
  · rintro ⟨rfl, hfits, hmode⟩
    have hbits : checked.bits = size.bits := by cases hfits <;> rfl
    have hkind : (checked.isGeneral || checked.isHighByte) = true := by cases hfits <;> rfl
    have hqword : checked.bits = 64 ↔ size = .qword := by
      rw [hbits]
      cases size <;> decide
    have hallowed : (decide (mode = .mode32)
        && (decide (checked.bits = 64) || checked.isExtended || checked.needsRex)) = false := by
      cases mode with
      | mode64 => rfl
      | mode32 =>
        obtain ⟨hsize, hextended, hneeds⟩ := hmode rfl
        simp [hqword, hsize, hextended, hneeds]
    rw [checkRegister, hkind, hallowed, hbits]
    simp

def RegOrMem.operand : RegOrMem → Operand
  | .reg r => .reg r
  | .mem m => .mem m

/-- A register of the given size, or a memory operand, whose size no byte of it shows. -/
def RegOrMem.Fits (size : OperandSize) : RegOrMem → Prop
  | .reg r => r.Fits size
  | .mem _ => True

theorem checkRegOrMem_eq_ok {mode : Mode} {size : OperandSize} {op : Operand} {target : RegOrMem}
    (h : checkRegOrMem mode size op = .ok target) : op = target.operand ∧ target.Fits size := by
  cases op with
  | reg reg =>
    rw [checkRegOrMem] at h
    obtain ⟨checked, hchecked, h⟩ := bind_eq_ok.mp h
    cases h
    obtain ⟨rfl, hfits⟩ := checkRegister_eq_ok hchecked
    exact ⟨rfl, hfits⟩
  | mem mem =>
    rw [checkRegOrMem] at h
    split at h
    · simp at h
    · cases h
      exact ⟨rfl, trivial⟩
  | imm | rel => simp [checkRegOrMem] at h

/-! ### REX -/

/-- The prefix that is written holds the four bits that were asked for, and stands beside the
register operands as their names need it: with it SPL is meant, and without it AH. -/
theorem rexPrefix_eq_ok {mode : Mode} {rex : Rex} {regs : List Register} {written : Option Rex}
    (h : rexPrefix mode rex regs = .ok written) :
    (written.isSome → mode = .mode64)
      ∧ (written.any Rex.w = rex.w ∧ written.any Rex.r = rex.r
        ∧ written.any Rex.x = rex.x ∧ written.any Rex.b = rex.b)
      ∧ ∀ reg ∈ regs, (reg.needsRex → written ≠ none) ∧ (reg.isHighByte → written = none) := by
  rw [rexPrefix] at h
  split at h
  · rename_i hclear
    cases h
    obtain ⟨w, r, x, b⟩ := rex
    simp_all [Rex.isClear]
  split at h
  · simp at h
  rename_i hhigh
  split at h
  · simp at h
  rename_i hmode
  cases h
  have hmode64 : mode = .mode64 := Mode.eq_mode64_of_ne hmode
  refine ⟨fun _ => hmode64, ⟨rfl, rfl, rfl, rfl⟩, fun reg hreg => ⟨fun _ => by simp, ?_⟩⟩
  intro hreg'
  exact absurd (List.any_eq_true.mpr ⟨reg, hreg, hreg'⟩) hhigh

/-- A register operand is read back from its three bits and the fourth bit of REX. -/
theorem Register.Fits.register_extend {ctx : Context} {size : OperandSize} {reg : Register}
    (hfits : reg.Fits size) (hneeds : reg.needsRex → ctx.rex ≠ none)
    (hhigh : reg.isHighByte → ctx.rex = none) :
    ctx.register size (extend reg.isExtended reg.code) = reg := by
  cases hfits with
  | general size number =>
    rw [Register.extend_code number rfl, Context.register, if_neg]
    rintro ⟨rfl, hnone, hlow, hlt⟩
    exact hneeds (by simp [needsRex, hlow, hlt]) hnone
  | highByte number =>
    have hlt := number.isLt
    let wide : Fin 16 := ⟨number.val + 4, by omega⟩
    rw [Register.extend_code wide rfl, Context.register,
      if_pos ⟨rfl, hhigh rfl, by simp only [wide]; omega, by simp only [wide]; omega⟩]
    congr 1
    apply Fin.ext
    simp [wide, Fin.ofNat, Nat.mod_eq_of_lt hlt]

/-! ### What the bytes behind an opcode show -/

/-- The bytes are read under the context as a ModR/M that holds the field and the target. -/
def Decoder.Context.Shows (ctx : Context) (bytes : List UInt8) (field : RegFieldUse)
    (target : RegOrMem) : Prop :=
  ∃ number shown,
    (∀ rest, readModRm ctx (bytes ++ rest) = some (⟨field.code, number, shown⟩, rest))
      ∧ (∀ reg size, field = .reg reg → reg.Fits size → ctx.register size number = reg)
      ∧ ∀ size, target.Fits size →
          shown.operand ctx size = target.operand.expected ctx.mode

/-- The context of an instruction laid out in the given mode and size. -/
structure Decoder.Context.Selects (ctx : Context) (mode : Mode) (size : OperandSize)
    (wide : Bool) : Prop where
  mode : ctx.mode = mode
  operandPrefix : ctx.operandPrefix = decide (size = .word)
  wide : ctx.rexBit Rex.w = wide

theorem OperandSize.wideBit_of_ne_byte {size : OperandSize} (h : size ≠ .byte) :
    size.wideBit = 1 := by
  cases size with
  | byte => exact absurd rfl h
  | _ => rfl

theorem Decoder.Context.size_ne_byte (ctx : Context) : ctx.size ≠ .byte := by
  rw [Context.size]
  split
  · simp
  · split <;> simp

namespace Decoder.Context.Selects

variable {ctx : Context} {mode : Mode} {size : OperandSize}

theorem size_eq (h : ctx.Selects mode size (decide (size = .qword))) (hsize : size ≠ .byte) :
    ctx.size = size := by
  rw [Context.size, h.wide, h.operandPrefix]
  cases size <;> simp_all

theorem opcodeSize_eq (h : ctx.Selects mode size (decide (size = .qword))) {opcode : Nat}
    (hopcode : opcode % 2 = size.wideBit) : ctx.opcodeSize opcode = size := by
  rw [Context.opcodeSize, hopcode]
  by_cases hsize : size = .byte
  · rw [hsize]
    rfl
  · rw [OperandSize.wideBit_of_ne_byte hsize]
    exact h.size_eq hsize

theorem stackSize_eq {setting : Setting} {wide : Bool} (h : ctx.Selects setting.mode size wide)
    (hstack : setting.stackSize = .ok size) : ctx.stackSize = size := by
  obtain ⟨mode, settingSize⟩ := setting
  rw [Context.stackSize, h.operandPrefix, h.mode]
  cases mode <;> cases settingSize <;> cases hstack <;> rfl

theorem stackSize_eq_branchSize {setting : Setting} {wide : Bool}
    (h : ctx.Selects setting.mode .dword wide) : ctx.stackSize = setting.branchSize := by
  rw [Context.stackSize, h.operandPrefix, h.mode]
  rfl

end Decoder.Context.Selects

/-! ### The two shapes -/

theorem shows_register {ctx : Context} {field : RegFieldUse} {reg : Register}
    (hr : ctx.rexBit Rex.r = field.isExtended) (hb : ctx.rexBit Rex.b = reg.isExtended)
    (hregs : ∀ r ∈ reg :: field.regs,
      (r.needsRex → ctx.rex ≠ none) ∧ (r.isHighByte → ctx.rex = none)) :
    ctx.Shows (ModRm.bytes { mod := 3, reg := field.code, rm := reg.code }) field (.reg reg) := by
  refine ⟨_, _, readModRm_register ctx field.code reg.code, ?_, ?_⟩
  · rintro r size rfl hfits
    have hr' := hregs r (by simp [RegFieldUse.regs])
    rw [hr]
    simpa [RegFieldUse.isExtended, RegFieldUse.regs, RegFieldUse.code]
      using hfits.register_extend hr'.1 hr'.2
  · intro size hfits
    have hreg' := hregs reg (by simp)
    rw [Target.operand, hb, hfits.register_extend hreg'.1 hreg'.2]
    rfl

theorem shows_memory {ctx : Context} {field : RegFieldUse} {mem : Memory} {fields : ModRm}
    (hsuits : ctx.Suits mem) (hfields : mem.modRm ctx.mode field.code = .ok fields)
    (hr : ctx.rexBit Rex.r = field.isExtended)
    (hregs : ∀ r ∈ field.regs, (r.needsRex → ctx.rex ≠ none) ∧ (r.isHighByte → ctx.rex = none)) :
    ctx.Shows fields.bytes field (.mem mem) := by
  refine ⟨_, _, readModRm_memory hsuits hfields, ?_, fun size _ => rfl⟩
  rintro r size rfl hfits
  have hr' := hregs r (by simp [RegFieldUse.regs])
  rw [hr]
  simpa [RegFieldUse.isExtended, RegFieldUse.regs, RegFieldUse.code]
    using hfits.register_extend hr'.1 hr'.2

section Shapes

variable {mode : Mode} {size : OperandSize} {wide : Bool} {immediate : List UInt8}
  {layout : Layout}

/-- An instruction with ModR/M is read as its opcode, its fields and its immediate, under a context
that selects its size and shows its operands. -/
theorem decode_withModRm {opcode : UInt8} {more : List UInt8} {field : RegFieldUse}
    {target : RegOrMem}
    (h : withModRm mode size wide (opcode :: more) field target immediate = .ok layout)
    (hopcode : ¬IsPrefix mode opcode) :
    ∃ ctx fields, ctx.Selects mode size wide ∧ ctx.Shows fields field target
      ∧ ∀ rest, decode mode (layout.bytes ++ rest)
          = readOpcode ctx opcode.toNat (more ++ (fields ++ (immediate ++ rest))) := by
  cases target with
  | reg reg =>
    rw [withModRm] at h
    obtain ⟨rex, hrex, h⟩ := bind_eq_ok.mp h
    obtain ⟨hmode, ⟨hw, hr, -, hb⟩, hregs⟩ := rexPrefix_eq_ok hrex
    cases h
    let ctx : Context := { mode, operandPrefix := size = .word, rex }
    refine ⟨ctx, _, ⟨rfl, rfl, hw⟩, shows_register hr hb hregs, fun rest => ?_⟩
    rw [decode_layout_bytes rfl hmode hopcode, Layout.body, List.append_assoc]
    rfl
  | mem mem =>
    rw [withModRm] at h
    obtain ⟨addressPrefix, haddress, h⟩ := bind_eq_ok.mp h
    obtain ⟨rex, hrex, h⟩ := bind_eq_ok.mp h
    obtain ⟨fields, hfields, h⟩ := bind_eq_ok.mp h
    obtain ⟨hmode, ⟨hw, hr, hx, hb⟩, hregs⟩ := rexPrefix_eq_ok hrex
    cases h
    let ctx : Context := { mode, operandPrefix := size = .word, addressPrefix, rex }
    have hsuits : ctx.Suits mem := ⟨Memory.addressable_of_addressPrefix haddress, hx, hb⟩
    refine ⟨ctx, _, ⟨rfl, rfl, hw⟩, shows_memory hsuits hfields hr hregs, fun rest => ?_⟩
    rw [decode_layout_bytes rfl hmode hopcode, Layout.body, List.append_assoc]
    rfl

/-- An instruction without ModR/M is read as its opcode and its immediate. -/
theorem decode_withoutModRm {opcode : Nat} {reg : Option Register} {code : Nat}
    (h : withoutModRm mode size wide opcode reg immediate = .ok layout)
    (hcode : (reg.map fun reg => reg.code.val).getD 0 = code) (hbyte : opcode + code < 256)
    (hopcode : ¬IsPrefix mode (UInt8.ofNat (opcode + code))) :
    ∃ ctx, ctx.Selects mode size wide ∧ ctx.rexBit Rex.b = reg.any Register.isExtended
      ∧ (∀ r ∈ reg.toList, (r.needsRex → ctx.rex ≠ none) ∧ (r.isHighByte → ctx.rex = none))
      ∧ ∀ rest, decode mode (layout.bytes ++ rest)
          = readOpcode ctx (opcode + code) (immediate ++ rest) := by
  rw [withoutModRm] at h
  obtain ⟨rex, hrex, h⟩ := bind_eq_ok.mp h
  obtain ⟨hmode, ⟨hw, -, -, hb⟩, hregs⟩ := rexPrefix_eq_ok hrex
  subst hcode
  cases h
  let ctx : Context := { mode, operandPrefix := size = .word, rex }
  refine ⟨ctx, ⟨rfl, rfl, hw⟩, hb, hregs, fun rest => ?_⟩
  rw [decode_layout_bytes rfl hmode hopcode, UInt8.toNat_ofNat', Nat.mod_eq_of_lt hbyte]
  rfl

theorem decode_withoutRegister {opcode : Nat} (hbyte : opcode < 256)
    (h : withoutModRm mode size wide opcode none immediate = .ok layout)
    (hopcode : ¬IsPrefix mode (UInt8.ofNat opcode)) :
    ∃ ctx, ctx.Selects mode size wide ∧ ∀ rest, decode mode (layout.bytes ++ rest)
      = readOpcode ctx opcode (immediate ++ rest) := by
  obtain ⟨ctx, hselects, -, -, hdecode⟩ := decode_withoutModRm h rfl hbyte hopcode
  exact ⟨ctx, hselects, hdecode⟩

theorem decode_opcodeRegister {opcode : Nat} {reg : Register} (hbyte : opcode < 256)
    (hrow : opcode % 8 = 0)
    (h : withoutModRm mode size wide opcode (some reg) immediate = .ok layout)
    (hopcode : ∀ code < 8, ¬IsPrefix mode (UInt8.ofNat (opcode + code))) (hfits : reg.Fits size) :
    ∃ ctx, ∃ code < 8, ctx.Selects mode size wide
      ∧ ctx.opcodeRegister size (opcode + code) = reg
      ∧ ∀ rest, decode mode (layout.bytes ++ rest)
          = readOpcode ctx (opcode + code) (immediate ++ rest) := by
  have hcode := reg.code.isLt
  obtain ⟨ctx, hselects, hb, hregs, hdecode⟩ :=
    decode_withoutModRm h rfl (by simp only [Option.map_some, Option.getD_some]; omega)
      (hopcode _ hcode)
  refine ⟨ctx, reg.code, hcode, hselects, ?_, hdecode⟩
  have hreg := hregs reg (by simp)
  have hextend : extend (ctx.rexBit Rex.b) (opcode + reg.code)
      = extend reg.isExtended reg.code := by
    rw [show ctx.rexBit Rex.b = reg.isExtended from hb]
    exact extend_congr (by omega)
  rw [Context.opcodeRegister, hextend]
  exact hfits.register_extend hreg.1 hreg.2

end Shapes

end MachineCode.X86
