import MachineCode.Proofs.X86.LegalAddresses

/-!
# Operands of the two-operand arithmetic group

Which operands the group accepts. A form is refused in the order of its checks, each operand for
itself, and a high byte beside a REX prefix only when the prefix is written. Together the checks
accept the operand lists of one size in which no high byte stands beside an operand that needs REX.
-/

namespace MachineCode.X86

/-! ### Operands of a size -/

theorem Register.fits_iff {size : OperandSize} {reg : Register} :
    reg.Fits size ↔ (reg.isGeneral ∨ reg.isHighByte) ∧ reg.bits = size.bits := by
  constructor
  · intro h
    cases h with
    | general number => exact ⟨.inl rfl, rfl⟩
    | highByte number => exact ⟨.inr rfl, rfl⟩
  · rintro ⟨hkind, hbits⟩
    cases reg with
    | general width number =>
      obtain rfl : width = size := by
        cases width <;> cases size <;> first | rfl | cases hbits
      exact .general width number
    | highByte number =>
      obtain rfl : size = .byte := by
        cases size <;> first | rfl | cases hbits
      exact .highByte number
    | _ => simp [isGeneral, isHighByte] at hkind

theorem OperandRegister.size_of_isHighByte {mode : Mode} {size : OperandSize} {reg : Register}
    (h : OperandRegister mode size reg) (hhigh : reg.isHighByte) : size = .byte := by
  have hfits := Register.fits_iff.mpr ⟨h.kind, h.bits⟩
  cases hfits with
  | general number => cases hhigh
  | highByte number => rfl

section Checks

variable {mode : Mode} {size : OperandSize}

theorem checkRegister_eq_ok_iff_operandRegister (hmode : size = .qword → mode = .mode64)
    {reg checked : Register} :
    checkRegister mode size reg = .ok checked ↔ checked = reg ∧ OperandRegister mode size reg := by
  rw [checkRegister_eq_ok_iff, Register.fits_iff]
  constructor
  · rintro ⟨rfl, ⟨hkind, hbits⟩, hlow⟩
    exact ⟨rfl, hkind, hbits, fun h => (hlow h).2⟩
  · rintro ⟨rfl, hkind, hbits, hlow⟩
    refine ⟨rfl, ⟨hkind, hbits⟩, fun h => ⟨fun hqword => ?_, hlow h⟩⟩
    rw [hmode hqword] at h
    cases h

/-- The register or memory operand has the size, and the mode has the register. -/
def RegOrMem.IsSized (mode : Mode) (size : OperandSize) : RegOrMem → Prop
  | .reg r => OperandRegister mode size r
  | .mem m => m.width.toNat = size.bits

theorem checkRegOrMem_eq_ok_iff (hmode : size = .qword → mode = .mode64) {op : Operand}
    {target : RegOrMem} :
    checkRegOrMem mode size op = .ok target
      ↔ op = target.operand ∧ target.IsSized mode size := by
  constructor
  · intro h
    obtain ⟨rfl, -⟩ := checkRegOrMem_eq_ok h
    refine ⟨rfl, ?_⟩
    cases target with
    | reg r =>
      obtain ⟨checked, hchecked, -⟩ := bind_eq_ok.mp h
      exact ((checkRegister_eq_ok_iff_operandRegister hmode).mp hchecked).2
    | mem m =>
      simp only [RegOrMem.operand, checkRegOrMem] at h
      split at h
      · cases h
      · rename_i hwidth
        exact not_not.mp hwidth
  · rintro ⟨rfl, hsized⟩
    cases target with
    | reg r =>
      have hchecked := (checkRegister_eq_ok_iff_operandRegister hmode).mpr ⟨rfl, hsized⟩
      exact bind_eq_ok.mpr ⟨r, hchecked, rfl⟩
    | mem m => exact if_neg (not_not.mpr hsized)

end Checks

namespace Operand

def IsRegister (setting : Setting) : Operand → Prop
  | .reg r => OperandRegister setting.mode setting.size r
  | _ => False

def IsMemory (setting : Setting) : Operand → Prop
  | .mem m => m.width.toNat = setting.size.bits ∧ m.IsLegal setting.mode
  | _ => False

def IsImmediate (setting : Setting) : Operand → Prop
  | .imm _ bits => ImmediateIn setting.size bits
  | _ => False

def IsHighByte : Operand → Prop
  | .reg r => r.isHighByte
  | _ => False

def NeedsRex : Operand → Prop
  | .reg r => r.isExtended ∨ r.needsRex
  | .mem m => ∃ r ∈ m.registers, r.isExtended
  | _ => False

/-- No high byte stands beside an operand that needs REX. -/
def Compatible (ops : List Operand) : Prop :=
  ∀ high ∈ ops, high.IsHighByte → ∀ other ∈ ops, ¬other.NeedsRex

end Operand

/-! ### Compatible operands -/

theorem needsNoRex_iff_of_false {target : RegOrMem} {field : RegFieldUse} :
    NeedsNoRex false field target
      ↔ (∀ reg ∈ target.allRegs ++ field.regs, reg.isExtended = false)
        ∧ ∀ reg ∈ target.regs ++ field.regs, reg.needsRex = false :=
  ⟨fun h => ⟨h.isExtended, h.needsRex⟩, fun h => ⟨rfl, h.1, h.2⟩⟩

/-- The operands of a form with ModR/M are compatible if what stands beside a high byte asks for no
REX prefix. -/
theorem compatible_iff {target : RegOrMem} {field : RegFieldUse} :
    Operand.Compatible (target.operand :: field.regs.map .reg)
      ↔ ((∃ high ∈ target.regs ++ field.regs, high.isHighByte) →
        NeedsNoRex false field target) := by
  have hhigh : (∃ high ∈ target.operand :: field.regs.map .reg, high.IsHighByte)
      ↔ ∃ high ∈ target.regs ++ field.regs, high.isHighByte := by
    cases target <;> simp [RegOrMem.operand, RegOrMem.regs, Operand.IsHighByte]
  have hneeds : (∀ other ∈ target.operand :: field.regs.map .reg, ¬other.NeedsRex)
      ↔ NeedsNoRex false field target := by
    rw [needsNoRex_iff_of_false]
    cases target <;> simp only [RegOrMem.operand, RegOrMem.allRegs, RegOrMem.regs,
      Operand.NeedsRex, List.forall_mem_cons, List.forall_mem_append, List.forall_mem_map]
    all_goals grind
  rw [← hhigh, ← hneeds]
  constructor
  · rintro h ⟨high, hmem, hbyte⟩
    exact h high hmem hbyte
  · intro h high hmem hbyte
    exact h ⟨high, hmem, hbyte⟩

theorem Operand.compatible_swap {first second : Operand} :
    Operand.Compatible [first, second] ↔ Operand.Compatible [second, first] := by
  have hmem (op : Operand) : op ∈ [first, second] ↔ op ∈ [second, first] := by
    simp [or_comm]
  simp only [Compatible, hmem]

theorem Operand.compatible_imm {op : Operand} {value : UInt64} {bits : UInt8} :
    Operand.Compatible [op, .imm value bits] ↔ Operand.Compatible [op] := by
  simp [Compatible, IsHighByte, NeedsRex]

/-! ### The forms of the group -/

section Forms

variable {setting : Setting}

theorem exists_regOrMem_iff {op : Operand} :
    (op.IsRegister setting ∨ op.IsMemory setting)
      ↔ ∃ target : RegOrMem, op = target.operand ∧ target.IsSized setting.mode setting.size
        ∧ target.IsLegal setting.mode := by
  constructor
  · cases op with
    | reg r =>
      rintro (h | h)
      · exact ⟨.reg r, rfl, h, trivial⟩
      · cases h
    | mem m =>
      rintro (h | h)
      · cases h
      · exact ⟨.mem m, rfl, h⟩
    | imm | rel => rintro (h | h) <;> cases h
  · rintro ⟨target, rfl, hsized, hlegal⟩
    cases target with
    | reg r => exact .inl hsized
    | mem m => exact .inr ⟨hsized, hlegal⟩

/-- A form with ModR/M of operands of the setting exists if they are legal and compatible. -/
theorem exists_modRmForm_iff {opcode : Nat} {field : RegFieldUse} {target : RegOrMem}
    {immediate : List UInt8} (hmode : setting.size = .qword → setting.mode = .mode64)
    (htarget : target.IsSized setting.mode setting.size)
    (hfield : ∀ reg ∈ field.regs, OperandRegister setting.mode setting.size reg) :
    (∃ layout, setting.modRmForm opcode field target immediate = .ok layout)
      ↔ target.IsLegal setting.mode
        ∧ Operand.Compatible (target.operand :: field.regs.map .reg) := by
  have hregs : ∀ reg ∈ target.regs ++ field.regs,
      OperandRegister setting.mode setting.size reg := by
    intro reg hreg
    rcases List.mem_append.mp hreg with hmem | hmem
    · cases target with
      | reg r => rwa [List.mem_singleton.mp hmem]
      | mem m => cases hmem
    · exact hfield reg hmem
  rw [Setting.modRmForm, exists_withModRm_iff, compatible_iff]
  · -- A high byte has the byte size, at which REX.W is not asked for.
    refine and_congr_right fun _ => forall_congr' fun hany => ?_
    obtain ⟨high, hmem, hhigh⟩ := hany
    rw [(hregs high hmem).size_of_isHighByte hhigh]
    rfl
  · intro h32 hlegal
    refine ⟨?_, fun reg hreg => ?_, fun reg hreg => ((hregs reg hreg).low h32).2⟩
    · refine decide_eq_false fun hqword => ?_
      rw [hmode hqword] at h32
      cases h32
    · cases target with
      | reg r => exact ((hregs reg hreg).low h32).1
      | mem m =>
        rcases List.mem_append.mp hreg with haddress | hmem
        · rw [h32] at hlegal
          exact hlegal.shape.isExtended_eq_false reg haddress
        · exact ((hregs reg (List.mem_append_right _ hmem)).low h32).1

theorem exists_regPairForm_iff {opcode : Nat} {reg : Register} {other : Operand}
    (hmode : setting.size = .qword → setting.mode = .mode64) :
    (∃ layout, setting.regPairForm opcode reg other = .ok layout)
      ↔ OperandRegister setting.mode setting.size reg
        ∧ (other.IsRegister setting ∨ other.IsMemory setting)
        ∧ Operand.Compatible [other, .reg reg] := by
  have hfield (hreg : OperandRegister setting.mode setting.size reg) :
      ∀ r ∈ (RegFieldUse.reg reg).regs, OperandRegister setting.mode setting.size r := by
    simpa [RegFieldUse.regs] using hreg
  rw [Setting.regPairForm, exists_bind_eq_ok, exists_regOrMem_iff]
  constructor
  · rintro ⟨checked, hchecked, hrest⟩
    obtain ⟨target, htarget, hform⟩ := exists_bind_eq_ok.mp hrest
    obtain ⟨rfl, hreg⟩ := (checkRegister_eq_ok_iff_operandRegister hmode).mp hchecked
    obtain ⟨rfl, hsized⟩ := (checkRegOrMem_eq_ok_iff hmode).mp htarget
    obtain ⟨hlegal, hcompatible⟩ := (exists_modRmForm_iff hmode hsized (hfield hreg)).mp hform
    exact ⟨hreg, ⟨target, rfl, hsized, hlegal⟩, hcompatible⟩
  · rintro ⟨hreg, ⟨target, rfl, hsized, hlegal⟩, hcompatible⟩
    have hchecked := (checkRegister_eq_ok_iff_operandRegister hmode).mpr ⟨rfl, hreg⟩
    have htarget := (checkRegOrMem_eq_ok_iff hmode).mpr ⟨rfl, hsized⟩
    refine ⟨reg, hchecked, exists_bind_eq_ok.mpr ⟨target, htarget, ?_⟩⟩
    exact (exists_modRmForm_iff hmode hsized (hfield hreg)).mpr ⟨hlegal, hcompatible⟩

theorem immediateIn_iff {size : OperandSize} {bits : UInt8} :
    ImmediateIn size bits ↔ bits.toNat = size.immediateBits ∨ bits = 8 := by
  constructor
  · intro h
    cases h with
    | byte => exact .inr rfl
    | word | dword | qword => exact .inl rfl
  · rintro (h | rfl)
    · have hbits : bits = UInt8.ofNat size.immediateBits := by
        rw [← h, UInt8.ofNat_toNat]
      rw [hbits]
      cases size with
      | byte => exact .byte .byte
      | word => exact .word
      | dword => exact .dword
      | qword => exact .qword
    · exact .byte size

theorem exists_accumulatorForm {opcode : Nat} {immediate : List UInt8}
    (hmode : setting.size = .qword → setting.mode = .mode64) :
    ∃ layout, setting.accumulatorForm opcode immediate = .ok layout := by
  have hrex : ∃ written,
      rexPrefix setting.mode ⟨setting.size = .qword, false, false, false⟩ [] = .ok written := by
    refine (exists_rexPrefix_iff fun h32 => ⟨?_, List.forall_mem_nil _⟩).mpr ?_
    · have hsize : setting.size ≠ .qword := by
        intro hqword
        rw [hmode hqword] at h32
        cases h32
      simp [Rex.isClear, hsize]
    · rintro ⟨high, hmem, -⟩
      cases hmem
  obtain ⟨written, hwritten⟩ := hrex
  rw [Setting.accumulatorForm, withoutModRm]
  exact exists_bind_eq_ok.mpr ⟨written, hwritten, _, rfl⟩

/-- The number 0 needs no REX prefix and is no high byte. -/
theorem compatible_accumulator {target : RegOrMem} (h : target.isAccumulator = true) :
    Operand.Compatible [target.operand] := by
  cases target with
  | mem m => cases h
  | reg r =>
    have hnumber : r.number = 0 := of_decide_eq_true h
    have hhigh : ¬(Operand.reg r).IsHighByte := by
      cases r with
      | highByte number => simp [Register.number] at hnumber
      | _ => exact Bool.false_ne_true
    intro high hmem hbyte
    rw [List.mem_singleton.mp hmem] at hbyte
    exact absurd hbyte hhigh

/-- The form of an immediate beside a checked operand. -/
def Setting.aluImmediate (setting : Setting) (op : AluOp) (value : UInt64) (bits : UInt8)
    (target : RegOrMem) : Except RefusalCode Layout :=
  let immediate := immediateBytes value bits
  if bits.toNat = setting.size.immediateBits then
    if target.isAccumulator then
      setting.accumulatorForm (8 * op.digit + 4 + setting.size.wideBit) immediate
    else
      setting.modRmForm (0x80 + setting.size.wideBit) (.digit op.digit) target immediate
  else if bits = 8 then
    setting.modRmForm 0x83 (.digit op.digit) target immediate
  else
    .error .noMatchingForm

theorem alu_imm (op : AluOp) (dst : Operand) (value : UInt64) (bits : UInt8) :
    setting.alu op [dst, .imm value bits]
      = setting.regOrMem dst >>= setting.aluImmediate op value bits := by
  cases dst <;> rfl

theorem exists_aluImmediate_iff {op : AluOp} {target : RegOrMem} {value : UInt64} {bits : UInt8}
    (hmode : setting.size = .qword → setting.mode = .mode64)
    (htarget : target.IsSized setting.mode setting.size) :
    (∃ layout, setting.aluImmediate op value bits target = .ok layout)
      ↔ target.IsLegal setting.mode ∧ ImmediateIn setting.size bits
        ∧ Operand.Compatible [target.operand] := by
  have hmodRm (opcode : Nat) :
      (∃ layout, setting.modRmForm opcode (.digit op.digit) target (immediateBytes value bits)
        = .ok layout)
        ↔ target.IsLegal setting.mode ∧ Operand.Compatible [target.operand] :=
    exists_modRmForm_iff hmode htarget nofun
  rw [immediateIn_iff, Setting.aluImmediate]
  by_cases hfull : bits.toNat = setting.size.immediateBits
  · rw [if_pos hfull]
    by_cases haccumulator : target.isAccumulator
    · have hlegal : target.IsLegal setting.mode := by
        cases target with
        | reg r => trivial
        | mem m => cases haccumulator
      rw [if_pos haccumulator]
      exact iff_of_true (exists_accumulatorForm hmode)
        ⟨hlegal, .inl hfull, compatible_accumulator haccumulator⟩
    · rw [if_neg haccumulator, hmodRm]
      simp [hfull]
  · rw [if_neg hfull]
    by_cases hbyte : bits = 8
    · rw [if_pos hbyte, hmodRm]
      simp [hbyte]
    · simp [hfull, hbyte]

theorem exists_alu_imm_iff {op : AluOp} {dst : Operand} {value : UInt64} {bits : UInt8}
    (hmode : setting.size = .qword → setting.mode = .mode64) :
    (∃ layout, setting.alu op [dst, .imm value bits] = .ok layout)
      ↔ (dst.IsRegister setting ∨ dst.IsMemory setting) ∧ ImmediateIn setting.size bits
        ∧ Operand.Compatible [dst, .imm value bits] := by
  rw [exists_regOrMem_iff, Operand.compatible_imm, alu_imm, exists_bind_eq_ok]
  constructor
  · rintro ⟨target, htarget, hform⟩
    obtain ⟨rfl, hsized⟩ := (checkRegOrMem_eq_ok_iff hmode).mp htarget
    obtain ⟨hlegal, hrest⟩ := (exists_aluImmediate_iff hmode hsized).mp hform
    exact ⟨⟨target, rfl, hsized, hlegal⟩, hrest⟩
  · rintro ⟨⟨target, rfl, hsized, hlegal⟩, hrest⟩
    have htarget := (checkRegOrMem_eq_ok_iff hmode).mpr ⟨rfl, hsized⟩
    exact ⟨target, htarget, (exists_aluImmediate_iff hmode hsized).mpr ⟨hlegal, hrest⟩⟩

theorem exists_alu_pair_iff {op : AluOp} {dst src : Operand}
    (hmode : setting.size = .qword → setting.mode = .mode64) :
    (∃ layout, setting.alu op [dst, src] = .ok layout)
      ↔ ((dst.IsRegister setting ∨ dst.IsMemory setting)
            ∧ (src.IsRegister setting ∨ src.IsImmediate setting)
          ∨ dst.IsRegister setting ∧ src.IsMemory setting)
        ∧ Operand.Compatible [dst, src] := by
  cases src with
  | imm value bits =>
    rw [exists_alu_imm_iff hmode]
    simp only [Operand.IsRegister, Operand.IsMemory, Operand.IsImmediate, false_or, and_false,
      or_false, and_assoc]
  | reg src =>
    cases dst with
    | reg | mem =>
      refine (exists_regPairForm_iff hmode).trans ?_
      simp [Operand.IsRegister, Operand.IsMemory, Operand.IsImmediate, and_left_comm, and_assoc]
    | imm | rel => simp [Setting.alu, Operand.IsRegister, Operand.IsMemory]
  | mem src =>
    cases dst with
    | reg dst =>
      refine (exists_regPairForm_iff hmode).trans ?_
      rw [Operand.compatible_swap]
      simp [Operand.IsRegister, Operand.IsMemory, Operand.IsImmediate, and_assoc]
    | mem | imm | rel => simp [Setting.alu, Operand.IsRegister, Operand.IsImmediate]
  | rel disp bits =>
    cases dst <;> simp [Setting.alu, Operand.IsRegister, Operand.IsMemory, Operand.IsImmediate]

theorem twoOperands_iff {α : Type} {register memory immediate : α → Prop} {ops : List α} :
    TwoOperands register memory immediate ops
      ↔ ∃ dst src, ops = [dst, src]
        ∧ ((register dst ∨ memory dst) ∧ (register src ∨ immediate src)
          ∨ register dst ∧ memory src) := by
  constructor
  · intro h
    cases h with
    | regReg hdst hsrc => exact ⟨_, _, rfl, .inl ⟨.inl hdst, .inl hsrc⟩⟩
    | memReg hdst hsrc => exact ⟨_, _, rfl, .inl ⟨.inr hdst, .inl hsrc⟩⟩
    | regMem hdst hsrc => exact ⟨_, _, rfl, .inr ⟨hdst, hsrc⟩⟩
    | regImm hdst hsrc => exact ⟨_, _, rfl, .inl ⟨.inl hdst, .inr hsrc⟩⟩
    | memImm hdst hsrc => exact ⟨_, _, rfl, .inl ⟨.inr hdst, .inr hsrc⟩⟩
  · rintro ⟨dst, src, rfl, ⟨hdst | hdst, hsrc | hsrc⟩ | ⟨hdst, hsrc⟩⟩
    · exact .regReg hdst hsrc
    · exact .regImm hdst hsrc
    · exact .memReg hdst hsrc
    · exact .memImm hdst hsrc
    · exact .regMem hdst hsrc

/-- The group has a form for the compatible operand lists of one size and no others. -/
theorem exists_alu_iff {op : AluOp} {ops : List Operand}
    (hmode : setting.size = .qword → setting.mode = .mode64) :
    (∃ layout, setting.alu op ops = .ok layout)
      ↔ TwoOperands (Operand.IsRegister setting) (Operand.IsMemory setting)
          (Operand.IsImmediate setting) ops
        ∧ Operand.Compatible ops := by
  rw [twoOperands_iff]
  rcases ops with _ | ⟨dst, _ | ⟨src, _ | ⟨third, rest⟩⟩⟩
  · simp [Setting.alu]
  · simp [Setting.alu]
  · rw [exists_alu_pair_iff hmode]
    simp
  · simp [Setting.alu]

end Forms

/-! ### Operands that are asked for -/

/-- The operand that is read for one that is asked for. -/
inductive Reads : ResolvedOperand → Operand → Prop where
  | reg {id : RegisterId} {reg : Register} (hreg : Register.ofId? id = some reg) :
      Reads (.reg id) (.reg reg)
  | unsigned (value : UInt64) (bits : UInt8) : Reads (.unsigned value bits) (.imm value bits)
  | signed (value : Int64) (bits : UInt8) : Reads (.signed value bits) (.imm value.toUInt64 bits)
  | relative (disp : Int32) (bits : UInt8) : Reads (.relative disp bits) (.rel disp bits)
  | mem {memory : ResolvedMemory} {address : Memory} (haddress : readAddress memory = .ok address) :
      Reads (.mem memory) (.mem address)

theorem readOperand_eq_ok_iff {asked : ResolvedOperand} {op : Operand} :
    readOperand asked = .ok op ↔ Reads asked op := by
  constructor
  · intro h
    cases asked with
    | reg id =>
      cases hreg : Register.ofId? id with
      | none => simp [readOperand, readRegister, hreg] at h
      | some reg =>
        simp only [readOperand, readRegister, hreg] at h
        cases h
        exact .reg hreg
    | mem memory =>
      rw [readOperand_mem] at h
      cases haddress : readAddress memory with
      | error code => simp [haddress, Except.map] at h
      | ok address =>
        rw [haddress] at h
        cases h
        exact .mem haddress
    | unsigned value bits =>
      cases h
      exact .unsigned value bits
    | signed value bits =>
      cases h
      exact .signed value bits
    | relative disp bits =>
      cases h
      exact .relative disp bits
  · intro h
    cases h with
    | reg hreg => simp [readOperand, readRegister, hreg]
    | unsigned | signed | relative => rfl
    | mem haddress =>
      rw [readOperand_mem, haddress]
      rfl

namespace Reads

variable {asked : ResolvedOperand} {op : Operand}

theorem isRegister_iff (h : Reads asked op) (setting : Setting) :
    AluOperand.IsRegister setting.mode setting.size asked ↔ op.IsRegister setting := by
  cases h with
  | reg hreg => simp [AluOperand.IsRegister, Operand.IsRegister, hreg]
  | _ => exact Iff.rfl

theorem isMemory_iff (h : Reads asked op) (setting : Setting) :
    AluOperand.IsMemory setting.mode setting.size asked ↔ op.IsMemory setting := by
  cases h with
  | mem haddress =>
    rw [AluOperand.IsMemory, exists_encode_leaEax_iff, haddress]
    simp [Operand.IsMemory, (readAddress_eq_ok_iff.mp haddress).2.2]
  | _ => exact Iff.rfl

theorem isImmediate_iff (h : Reads asked op) (setting : Setting) :
    AluOperand.IsImmediate setting.size asked ↔ op.IsImmediate setting := by
  cases h <;> exact Iff.rfl

theorem isHighByte_iff (h : Reads asked op) : AluOperand.IsHighByte asked ↔ op.IsHighByte := by
  cases h with
  | reg hreg => simp [AluOperand.IsHighByte, Operand.IsHighByte, hreg]
  | _ => exact Iff.rfl

theorem needsRex_iff (h : Reads asked op) : AluOperand.NeedsRex asked ↔ op.NeedsRex := by
  cases h with
  | reg hreg => simp [AluOperand.NeedsRex, Operand.NeedsRex, hreg]
  | mem haddress =>
    obtain ⟨-, -, rfl⟩ := readAddress_eq_ok_iff.mp haddress
    exact Iff.rfl
  | _ => exact Iff.rfl

end Reads

theorem exists_reads_of_isRegister {mode : Mode} {size : OperandSize} {asked : ResolvedOperand}
    (h : AluOperand.IsRegister mode size asked) : ∃ op, Reads asked op := by
  cases asked with
  | reg id =>
    obtain ⟨reg, hreg, -⟩ := h
    exact ⟨_, .reg hreg⟩
  | _ => cases h

theorem exists_reads_of_isMemory {mode : Mode} {size : OperandSize} {asked : ResolvedOperand}
    (h : AluOperand.IsMemory mode size asked) : ∃ op, Reads asked op := by
  cases asked with
  | mem memory =>
    obtain ⟨address, haddress, -⟩ := exists_encode_leaEax_iff.mp h.2
    exact ⟨_, .mem haddress⟩
  | _ => cases h

theorem exists_reads_of_isImmediate {size : OperandSize} {asked : ResolvedOperand}
    (h : AluOperand.IsImmediate size asked) : ∃ op, Reads asked op := by
  cases asked with
  | unsigned value bits => exact ⟨_, .unsigned value bits⟩
  | signed value bits => exact ⟨_, .signed value bits⟩
  | _ => cases h

/-- A list of the group is read. -/
theorem exists_mapM_of_twoOperands {mode : Mode} {size : OperandSize} {asked : List ResolvedOperand}
    (h : TwoOperands (AluOperand.IsRegister mode size) (AluOperand.IsMemory mode size)
      (AluOperand.IsImmediate size) asked) :
    ∃ ops, asked.mapM readOperand = .ok ops := by
  obtain ⟨dst, src, rfl, hshape⟩ := twoOperands_iff.mp h
  have hdst : ∃ op, Reads dst op := by
    rcases hshape with ⟨hdst | hdst, -⟩ | ⟨hdst, -⟩
    · exact exists_reads_of_isRegister hdst
    · exact exists_reads_of_isMemory hdst
    · exact exists_reads_of_isRegister hdst
  have hsrc : ∃ op, Reads src op := by
    rcases hshape with ⟨-, hsrc | hsrc⟩ | ⟨-, hsrc⟩
    · exact exists_reads_of_isRegister hsrc
    · exact exists_reads_of_isImmediate hsrc
    · exact exists_reads_of_isMemory hsrc
  obtain ⟨first, hfirst⟩ := hdst
  obtain ⟨second, hsecond⟩ := hsrc
  exact ⟨[first, second], mapM_eq_ok_pair_iff.mpr
    ⟨dst, src, rfl, readOperand_eq_ok_iff.mpr hfirst, readOperand_eq_ok_iff.mpr hsecond⟩⟩

section Lists

variable {setting : Setting} {asked : List ResolvedOperand} {ops : List Operand}

theorem twoOperands_of_mapM (h : asked.mapM readOperand = .ok ops) :
    TwoOperands (AluOperand.IsRegister setting.mode setting.size)
        (AluOperand.IsMemory setting.mode setting.size) (AluOperand.IsImmediate setting.size) asked
      ↔ TwoOperands (Operand.IsRegister setting) (Operand.IsMemory setting)
        (Operand.IsImmediate setting) ops := by
  rw [twoOperands_iff, twoOperands_iff]
  constructor
  · rintro ⟨dst, src, rfl, hshape⟩
    obtain ⟨first, rest, hfirst, hrest, rfl⟩ := mapM_cons_eq_ok_iff.mp h
    obtain ⟨second, nothing, hsecond, hnothing, rfl⟩ := mapM_cons_eq_ok_iff.mp hrest
    cases hnothing
    have hdst := readOperand_eq_ok_iff.mp hfirst
    have hsrc := readOperand_eq_ok_iff.mp hsecond
    rw [hdst.isRegister_iff, hdst.isMemory_iff, hsrc.isRegister_iff, hsrc.isMemory_iff,
      hsrc.isImmediate_iff] at hshape
    exact ⟨first, second, rfl, hshape⟩
  · rintro ⟨first, second, rfl, hshape⟩
    obtain ⟨dst, src, rfl, hfirst, hsecond⟩ := mapM_eq_ok_pair_iff.mp h
    have hdst := readOperand_eq_ok_iff.mp hfirst
    have hsrc := readOperand_eq_ok_iff.mp hsecond
    rw [← hdst.isRegister_iff, ← hdst.isMemory_iff, ← hsrc.isRegister_iff, ← hsrc.isMemory_iff,
      ← hsrc.isImmediate_iff] at hshape
    exact ⟨dst, src, rfl, hshape⟩

theorem compatible_of_mapM (h : asked.mapM readOperand = .ok ops) :
    (∀ high ∈ asked, AluOperand.IsHighByte high → ∀ other ∈ asked, ¬AluOperand.NeedsRex other)
      ↔ Operand.Compatible ops := by
  obtain ⟨hread, hfrom⟩ := exists_mem_of_mapM_eq_ok h
  constructor
  · intro hcompatible high hhigh hbyte other hother hneeds
    obtain ⟨left, hleft, hreads⟩ := hfrom high hhigh
    obtain ⟨right, hright, hreads'⟩ := hfrom other hother
    have hbyte' := (readOperand_eq_ok_iff.mp hreads).isHighByte_iff.mpr hbyte
    have hneeds' := (readOperand_eq_ok_iff.mp hreads').needsRex_iff.mpr hneeds
    exact hcompatible left hleft hbyte' right hright hneeds'
  · intro hcompatible high hhigh hbyte other hother hneeds
    obtain ⟨left, hleft, hreads⟩ := hread high hhigh
    obtain ⟨right, hright, hreads'⟩ := hread other hother
    have hbyte' := (readOperand_eq_ok_iff.mp hreads).isHighByte_iff.mp hbyte
    have hneeds' := (readOperand_eq_ok_iff.mp hreads').needsRex_iff.mp hneeds
    exact hcompatible left hleft hbyte' right hright hneeds'

end Lists

/-! ### The group -/

theorem Setting.ofBits_eq_ok_iff {mode : Mode} {bits : UInt8} {setting : Setting} :
    Setting.ofBits mode bits = .ok setting
      ↔ setting.mode = mode ∧ setting.size.bits = bits.toNat
        ∧ (setting.size = .qword → mode = .mode64) := by
  constructor
  · intro h
    unfold ofBits at h
    split at h <;> cases h <;> simp_all [OperandSize.bits]
  · rintro ⟨rfl, hbits, hmode⟩
    obtain ⟨mode, size⟩ := setting
    unfold ofBits
    rw [← hbits]
    cases size with
    | qword =>
      obtain rfl : mode = .mode64 := hmode rfl
      rfl
    | _ => rfl

theorem exists_alu_of_mem {entry : String × Operation} (h : entry ∈ mnemonics)
    (hname : entry.1 ∈ aluNames) : ∃ op, entry.2 = .alu op := by
  have hnamed : ∀ entry ∈ mnemonics, entry.1 ∈ aluNames →
      entry.2 ∈ [AluOp.add, .or, .adc, .sbb, .and, .sub, .xor, .cmp].map Operation.alu := by
    decide +kernel
  obtain ⟨op, -, hop⟩ := List.mem_map.mp (hnamed entry h hname)
  exact ⟨op, hop.symm⟩

theorem exists_alu_of_name {id : ClassId}
    (h : ∃ name ∈ aluNames, engine.classes.name? id = some name) :
    ∃ name op, mnemonic? id = some (name, .alu op) := by
  obtain ⟨name, hname, hid⟩ := h
  obtain ⟨⟨name, operation⟩, hentry, rfl⟩ := Option.map_eq_some_iff.mp hid
  have hmem : (name, operation) ∈ mnemonics := by
    rw [mnemonic?] at hentry
    split at hentry
    · cases hentry
    · exact List.mem_of_getElem? hentry
  obtain ⟨op, rfl⟩ := exists_alu_of_mem hmem hname
  exact ⟨name, op, hentry⟩

/-- **The arithmetic group accepts exactly its forms.** Into an output with room for every
instruction, ADD, OR, ADC, SBB, AND, SUB, XOR and CMP are encoded if and only if their two operands
have one of the five shapes and the operand size, the mode has them, and no high byte stands beside
an operand that needs a REX prefix. -/
theorem emit_alu_iff_accepts {inst : Instruction}
    (hname : ∃ name ∈ aluNames, engine.classes.name? inst.cls = some name) {room : Nat}
    (hroom : 13 ≤ room) (output : Vector UInt8 room) :
    (∃ count, (engine.emit inst output).1 = .ok count)
      ↔ ∃ size : OperandSize, size.bits = inst.operandBits.toNat
        ∧ AluAccepts inst.mode size inst.requested := by
  obtain ⟨name, op, hclass⟩ := exists_alu_of_name hname
  rw [exists_emit_iff hroom, exists_encode_iff hclass]
  constructor
  · rintro ⟨-, ops, hops, setting, hsetting, hlayout⟩
    obtain ⟨hmode, hbits, hqword⟩ := Setting.ofBits_eq_ok_iff.mp hsetting
    rw [← hmode] at hqword ⊢
    obtain ⟨htwo, hcompatible⟩ := (exists_alu_iff hqword).mp hlayout
    exact ⟨setting.size, hbits, hqword, (twoOperands_of_mapM hops).mpr htwo,
      (compatible_of_mapM hops).mpr hcompatible⟩
  · rintro ⟨size, hbits, hqword, htwo, hcompatible⟩
    obtain ⟨dst, src, hasked, -⟩ := twoOperands_iff.mp htwo
    have hcount : inst.requested.length ≤ operandLimit := by
      rw [hasked]
      exact Nat.le_of_ble_eq_true rfl
    obtain ⟨ops, hops⟩ := exists_mapM_of_twoOperands htwo
    have hsetting : Setting.ofBits inst.mode inst.operandBits = .ok ⟨inst.mode, size⟩ :=
      Setting.ofBits_eq_ok_iff.mpr ⟨rfl, hbits, hqword⟩
    have hlayout : ∃ layout, (Setting.mk inst.mode size).alu op ops = .ok layout :=
      (exists_alu_iff hqword).mpr
        ⟨(twoOperands_of_mapM hops).mp htwo, (compatible_of_mapM hops).mp hcompatible⟩
    exact ⟨hcount, ops, hops, _, hsetting, hlayout⟩

/-- ADD of AH to the byte at [RBX]. -/
def addHighByte : Instruction where
  mode := .mode64
  cls := ⟨1⟩
  operandBits := 8
  requested := [.mem ⟨⟨4⟩, ⟨0⟩, 1, 0, 0, 8⟩, .reg ⟨65⟩]

theorem emit_addHighByte :
    (engine.emit addHighByte (Vector.replicate 13 0)).1 = .ok 2
      ∧ AluAccepts .mode64 .byte addHighByte.requested := by
  have hname : ∃ name ∈ aluNames, engine.classes.name? addHighByte.cls = some name :=
    ⟨"ADD", by decide, rfl⟩
  have hemit : (engine.emit addHighByte (Vector.replicate 13 0)).1 = .ok 2 := by
    decide +kernel
  obtain ⟨size, hbits, haccepts⟩ :=
    (emit_alu_iff_accepts hname (by decide) (Vector.replicate 13 0)).mp ⟨2, hemit⟩
  obtain rfl : size = .byte := by
    cases size <;> first | rfl | cases hbits
  exact ⟨hemit, haccepts⟩

end MachineCode.X86
