import MachineCode.Proofs.X86.AluOperands
import MachineCode.Proofs.X86.Delivery

/-!
# Legacy registers in the two modes

The registers of a 32-bit processor mean the same in 64-bit mode, where an address in them needs a
prefix. An operation on memory whose registers are all of this kind passes the same checks in both
modes and comes to the same layout, but for that prefix.
-/

namespace MachineCode.X86

theorem Register.isLegacy_iff {reg : Register} :
    reg.isLegacy ↔ reg.bits ≠ 64 ∧ reg.isExtended = false ∧ reg.needsRex = false
      ∧ reg.isPointer = false := by
  simp [isLegacy, and_assoc]

/-! ### Legacy operands -/

def Operand.registers : Operand → List Register
  | .reg r => [r]
  | .mem m => m.registers
  | .imm _ _ | .rel _ _ => []

/-- An address that names registers, all of them legacy. -/
structure Memory.IsLegacy (mem : Memory) : Prop where
  named : mem.registers ≠ []
  registers : ∀ reg ∈ mem.registers, reg.isLegacy

/-- Operands with a memory operand that names a register, and with legacy registers only. -/
structure LegacyOperands (ops : List Operand) : Prop where
  addressed : ∃ mem, .mem mem ∈ ops ∧ mem.registers ≠ []
  registers : ∀ op ∈ ops, ∀ reg ∈ op.registers, reg.isLegacy

/-- The register that the `reg` field holds, if it holds one, is legacy. -/
def RegFieldUse.IsLegacy (field : RegFieldUse) : Prop := ∀ reg ∈ field.regs, reg.isLegacy

theorem RegFieldUse.IsLegacy.digit (digit : Fin 8) : (RegFieldUse.digit digit).IsLegacy :=
  List.forall_mem_nil _

theorem RegFieldUse.IsLegacy.reg {reg : Register} (h : reg.isLegacy) :
    (RegFieldUse.reg reg).IsLegacy := by
  intro other hother
  rwa [List.mem_singleton.mp hother]

namespace LegacyOperands

variable {ops : List Operand}

theorem hasMemory (h : LegacyOperands ops) : ∃ mem, .mem mem ∈ ops := by
  obtain ⟨mem, hmem, -⟩ := h.addressed
  exact ⟨mem, hmem⟩

theorem reg (h : LegacyOperands ops) {reg : Register} (hmem : .reg reg ∈ ops) : reg.isLegacy :=
  h.registers _ hmem reg (List.mem_singleton.mpr rfl)

/-- The memory operand that stands alone is the one that names a register. -/
theorem memory (h : LegacyOperands ops) {mem : Memory} (hmem : .mem mem ∈ ops)
    (hsingle : ∀ other, .mem other ∈ ops → other = mem) : mem.IsLegacy where
  named := by
    obtain ⟨other, hother, hnamed⟩ := h.addressed
    rwa [← hsingle other hother]
  registers := h.registers _ hmem

theorem regMem {reg : Register} {mem : Memory} (h : LegacyOperands [.reg reg, .mem mem]) :
    reg.isLegacy ∧ mem.IsLegacy :=
  ⟨h.reg (by simp), h.memory (by simp) (by simp)⟩

theorem memReg {reg : Register} {mem : Memory} (h : LegacyOperands [.mem mem, .reg reg]) :
    reg.isLegacy ∧ mem.IsLegacy :=
  ⟨h.reg (by simp), h.memory (by simp) (by simp)⟩

end LegacyOperands

/-! ### Forms in the two modes -/

/-- What a form comes to in 32-bit mode and in 64-bit mode: refused for the same reason, or the same
layout, to which 64-bit mode adds the address-size prefix. -/
inductive AddsAddressPrefix (size : OperandSize) :
    Except RefusalCode Layout → Except RefusalCode Layout → Prop where
  | refused (code : RefusalCode) : AddsAddressPrefix size (.error code) (.error code)
  | written {layout : Layout} (hoperand : layout.operandPrefix = decide (size = .word))
      (haddress : layout.addressPrefix = false) :
      AddsAddressPrefix size (.ok layout) (.ok { layout with addressPrefix := true })

theorem checkRegister_congr_mode {reg : Register} (h : reg.isLegacy) (size : OperandSize) :
    checkRegister .mode32 size reg = checkRegister .mode64 size reg := by
  obtain ⟨hbits, hextended, hrex, -⟩ := Register.isLegacy_iff.mp h
  simp [checkRegister, hbits, hextended, hrex]

namespace Memory.IsLegacy

variable {mem : Memory} (h : mem.IsLegacy)

include h

/-- A legacy address is one of 32 bits or none. -/
theorem addressPrefix_cases :
    (∃ code, ∀ mode, mem.addressPrefix mode = .error code)
      ∨ mem.addressPrefix .mode32 = .ok false ∧ mem.addressPrefix .mode64 = .ok true := by
  cases hbits : mem.addressBits with
  | error code =>
    refine .inl ⟨code, fun mode => ?_⟩
    rw [addressPrefix, hbits]
    rfl
  | ok width =>
    obtain ⟨hhead, -, -⟩ := addressBits_eq_ok hbits
    obtain ⟨reg, rest, hregisters⟩ := List.exists_cons_of_ne_nil h.named
    rw [hregisters, List.head?_cons, Option.map_some] at hhead
    have hreg : reg.isLegacy := h.registers reg (hregisters ▸ List.mem_cons_self)
    have hnarrow : reg.bits ≠ 64 := (Register.isLegacy_iff.mp hreg).1
    by_cases hdword : reg.bits = 32
    · have hplain : (mem.registers.any fun reg => reg.isExtended || reg.isPointer) = false := by
        rw [List.any_eq_false]
        intro reg hmem
        obtain ⟨-, hextended, -, hpointer⟩ := Register.isLegacy_iff.mp (h.registers reg hmem)
        simp [hextended, hpointer]
      refine .inr ⟨?_, ?_⟩
      · rw [addressPrefix, hbits, hhead, hdword]
        simp [bind, Except.bind, hplain]
      · rw [addressPrefix, hbits, hhead, hdword]
        rfl
    · refine .inl ⟨.badRegister, fun mode => ?_⟩
      rw [addressPrefix, hbits, hhead]
      simp only [bind, Except.bind]
      split <;> simp_all

/-- Where the mode matters to ModR/M, the address has no register or is relative to the instruction
pointer. -/
theorem modRm_congr_mode (field : Fin 8) : mem.modRm .mode32 field = mem.modRm .mode64 field := by
  rw [modRm, modRm]
  cases mem.scaleField? with
  | none => rfl
  | some scale =>
    by_cases hfits : mem.dispFits
    · simp only [hfits]
      cases hbase : mem.base with
      | none =>
        cases hindex : mem.index with
        | none =>
          have hnone : mem.registers = [] := by rw [Memory.registers, hbase, hindex]; rfl
          exact absurd hnone h.named
        | some index => simp [modRmWithoutBase, hindex]
      | some base =>
        have hmem : base ∈ mem.registers := by simp [Memory.registers, hbase]
        obtain ⟨-, -, -, hpointer⟩ := Register.isLegacy_iff.mp (h.registers base hmem)
        simp [hpointer]
    · simp [hfits]

end Memory.IsLegacy

theorem rexPrefix_of_legacy {field : RegFieldUse} (hfield : field.IsLegacy)
    {mem : Memory} (hmem : mem.IsLegacy) (mode : Mode) :
    rexPrefix mode
        ⟨false, field.isExtended, mem.index.any Register.isExtended,
          mem.base.any Register.isExtended⟩ field.regs
      = .ok none := by
  have hregs (reg : Register) (h : reg ∈ field.regs) :
      reg.isExtended = false ∧ reg.needsRex = false := by
    obtain ⟨-, hextended, hrex, -⟩ := Register.isLegacy_iff.mp (hfield reg h)
    exact ⟨hextended, hrex⟩
  have hregisters (reg : Register) (h : reg ∈ mem.registers) : reg.isExtended = false :=
    (Register.isLegacy_iff.mp (hmem.registers reg h)).2.1
  have hextended : field.isExtended = false :=
    List.any_eq_false.mpr fun reg h => by simp [hregs reg h]
  have hneeds : field.regs.any Register.needsRex = false :=
    List.any_eq_false.mpr fun reg h => by simp [hregs reg h]
  have hindex : mem.index.any Register.isExtended = false := by
    cases hindex : mem.index with
    | none => rfl
    | some index => exact hregisters index (by simp [Memory.registers, hindex])
  have hbase : mem.base.any Register.isExtended = false := by
    cases hbase : mem.base with
    | none => rfl
    | some base => exact hregisters base (by simp [Memory.registers, hbase])
  rw [rexPrefix, hextended, hneeds, hindex, hbase]
  rfl

namespace AddsAddressPrefix

variable {size : OperandSize}

theorem withModRm {opcode : List UInt8} {field : RegFieldUse} {mem : Memory}
    {immediate : List UInt8} (hfield : field.IsLegacy) (hmem : mem.IsLegacy) :
    AddsAddressPrefix size (X86.withModRm .mode32 size false opcode field (.mem mem) immediate)
      (X86.withModRm .mode64 size false opcode field (.mem mem) immediate) := by
  simp only [X86.withModRm, rexPrefix_of_legacy hfield hmem, hmem.modRm_congr_mode]
  rcases hmem.addressPrefix_cases with ⟨code, hcode⟩ | ⟨hnarrow, hwide⟩
  · rw [hcode, hcode]
    exact .refused code
  · rw [hnarrow, hwide]
    cases mem.modRm .mode64 field.code with
    | error code => exact .refused code
    | ok fields => exact .written rfl rfl

theorem bind {α : Type} {check : Except RefusalCode α}
    {narrow wide : α → Except RefusalCode Layout}
    (h : ∀ a, check = .ok a → AddsAddressPrefix size (narrow a) (wide a)) :
    AddsAddressPrefix size (check >>= narrow) (check >>= wide) := by
  cases check with
  | error code => exact .refused code
  | ok a => exact h a rfl

theorem register {reg : Register} (hreg : reg.isLegacy)
    {narrow wide : Register → Except RefusalCode Layout}
    (h : AddsAddressPrefix size (narrow reg) (wide reg)) :
    AddsAddressPrefix size (checkRegister .mode32 size reg >>= narrow)
      (checkRegister .mode64 size reg >>= wide) := by
  rw [checkRegister_congr_mode hreg]
  refine bind fun checked hchecked => ?_
  obtain ⟨rfl, -⟩ := checkRegister_eq_ok hchecked
  exact h

/-- The check of a memory operand looks at its width alone. -/
theorem regOrMem {mem : Memory} {narrow wide : RegOrMem → Except RefusalCode Layout}
    (h : AddsAddressPrefix size (narrow (.mem mem)) (wide (.mem mem))) :
    AddsAddressPrefix size (checkRegOrMem .mode32 size (.mem mem) >>= narrow)
      (checkRegOrMem .mode64 size (.mem mem) >>= wide) := by
  have hcongr : checkRegOrMem .mode32 size (.mem mem) = checkRegOrMem .mode64 size (.mem mem) := rfl
  rw [hcongr]
  refine bind fun target htarget => ?_
  cases target with
  | reg reg => cases (checkRegOrMem_eq_ok htarget).1
  | mem other =>
    cases (checkRegOrMem_eq_ok htarget).1
    exact h

theorem ite {p : Prop} [Decidable p] {first second first' second' : Except RefusalCode Layout}
    (hfirst : AddsAddressPrefix size first first')
    (hsecond : AddsAddressPrefix size second second') :
    AddsAddressPrefix size (if p then first else second) (if p then first' else second') := by
  split
  · exact hfirst
  · exact hsecond

theorem noMatchingForm : AddsAddressPrefix size (.error .noMatchingForm) (.error .noMatchingForm) :=
  .refused _

theorem badOperandCount :
    AddsAddressPrefix size (.error .badOperandCount) (.error .badOperandCount) :=
  .refused _

end AddsAddressPrefix

namespace Setting

/-- A form of the operand size that comes to one layout in the two modes, but for the prefix. -/
def AddsPrefix (size : OperandSize) (form : Setting → Except RefusalCode Layout) : Prop :=
  AddsAddressPrefix size (form ⟨.mode32, size⟩) (form ⟨.mode64, size⟩)

section Families

variable {size : OperandSize} (hsize : size ≠ .qword) {ops : List Operand}
  (hops : LegacyOperands ops)

include hsize

theorem modRmForm_addsPrefix {mem : Memory} (hmem : mem.IsLegacy) (opcode : Nat)
    {field : RegFieldUse} (hfield : field.IsLegacy) (immediate : List UInt8) :
    AddsPrefix size fun setting => setting.modRmForm opcode field (.mem mem) immediate := by
  simp only [AddsPrefix, modRmForm, decide_eq_false hsize]
  exact .withModRm hfield hmem

theorem digitForm_addsPrefix {mem : Memory} (hmem : mem.IsLegacy) (opcode : Nat) (digit : Fin 8)
    (immediate : List UInt8) :
    AddsPrefix size fun setting => setting.modRmForm opcode (.digit digit) (.mem mem) immediate :=
  modRmForm_addsPrefix hsize hmem opcode (.digit digit) immediate

theorem regForm_addsPrefix {mem : Memory} (hmem : mem.IsLegacy) (opcode : Nat) {reg : Register}
    (hreg : reg.isLegacy) (immediate : List UInt8) :
    AddsPrefix size fun setting => setting.modRmForm opcode (.reg reg) (.mem mem) immediate :=
  modRmForm_addsPrefix hsize hmem opcode (.reg hreg) immediate

theorem regPairForm_addsPrefix {mem : Memory} (hmem : mem.IsLegacy) (opcode : Nat) {reg : Register}
    (hreg : reg.isLegacy) :
    AddsPrefix size fun setting => setting.regPairForm opcode reg (.mem mem) :=
  .register hreg (.regOrMem (regForm_addsPrefix hsize hmem _ hreg []))

include hops

theorem alu_addsPrefix (op : AluOp) : AddsPrefix size fun setting => setting.alu op ops := by
  rcases ops with _ | ⟨first, _ | ⟨second, _ | ⟨third, rest⟩⟩⟩
  · exact .badOperandCount
  · cases first <;> exact .badOperandCount
  · cases first with
    | reg dst =>
      cases second with
      | mem src =>
        obtain ⟨hreg, hmem⟩ := hops.regMem
        exact regPairForm_addsPrefix hsize hmem _ hreg
      | _ => exact absurd hops.hasMemory (by simp)
    | mem dst =>
      cases second with
      | reg src =>
        obtain ⟨hreg, hmem⟩ := hops.memReg
        exact regPairForm_addsPrefix hsize hmem _ hreg
      | imm value bits =>
        have hdst : dst.IsLegacy := hops.memory (by simp) (by simp)
        refine .regOrMem (.ite ?_ (.ite ?_ .noMatchingForm))
        · exact digitForm_addsPrefix hsize hdst _ _ _
        · exact digitForm_addsPrefix hsize hdst _ _ _
      | _ => exact .noMatchingForm
    | _ => cases second <;> exact .noMatchingForm
  · cases first <;> cases second <;> exact .badOperandCount

theorem mov_addsPrefix : AddsPrefix size fun setting => setting.mov ops := by
  rcases ops with _ | ⟨first, _ | ⟨second, _ | ⟨third, rest⟩⟩⟩
  · exact .badOperandCount
  · cases first <;> exact .badOperandCount
  · cases first with
    | reg dst =>
      cases second with
      | mem src =>
        obtain ⟨hreg, hmem⟩ := hops.regMem
        exact regPairForm_addsPrefix hsize hmem _ hreg
      | _ => exact absurd hops.hasMemory (by simp)
    | mem dst =>
      cases second with
      | reg src =>
        obtain ⟨hreg, hmem⟩ := hops.memReg
        exact regPairForm_addsPrefix hsize hmem _ hreg
      | imm value bits =>
        refine .ite (.regOrMem ?_) .noMatchingForm
        exact digitForm_addsPrefix hsize (hops.memory (by simp) (by simp)) _ _ _
      | _ => exact .noMatchingForm
    | _ => cases second <;> exact .noMatchingForm
  · cases first <;> cases second <;> exact .badOperandCount

theorem lea_addsPrefix : AddsPrefix size fun setting => setting.lea ops := by
  rcases ops with _ | ⟨first, _ | ⟨second, _ | ⟨third, rest⟩⟩⟩
  · exact .badOperandCount
  · cases first <;> exact .badOperandCount
  · cases first with
    | reg dst =>
      cases second with
      | mem src =>
        obtain ⟨hdst, hsrc⟩ := hops.regMem
        exact .ite .noMatchingForm (.register hdst (regForm_addsPrefix hsize hsrc _ hdst []))
      | _ => exact absurd hops.hasMemory (by simp)
    | _ => cases second <;> exact .noMatchingForm
  · cases first <;> cases second <;> exact .badOperandCount

theorem test_addsPrefix : AddsPrefix size fun setting => setting.test ops := by
  rcases ops with _ | ⟨first, _ | ⟨second, _ | ⟨third, rest⟩⟩⟩
  · exact .badOperandCount
  · cases first <;> exact .badOperandCount
  · cases first with
    | reg left =>
      cases second with
      | mem right =>
        obtain ⟨hreg, hmem⟩ := hops.regMem
        exact regPairForm_addsPrefix hsize hmem _ hreg
      | _ => exact absurd hops.hasMemory (by simp)
    | mem left =>
      cases second with
      | reg right =>
        obtain ⟨hreg, hmem⟩ := hops.memReg
        exact regPairForm_addsPrefix hsize hmem _ hreg
      | imm value bits =>
        refine .ite (.regOrMem ?_) .noMatchingForm
        exact digitForm_addsPrefix hsize (hops.memory (by simp) (by simp)) _ _ _
      | _ => exact .noMatchingForm
    | _ =>
      cases second with
      | mem right => exact .noMatchingForm
      | _ => exact absurd hops.hasMemory (by simp)
  · cases first <;> cases second <;> exact .badOperandCount

theorem step_addsPrefix (op : StepOp) : AddsPrefix size fun setting => setting.step op ops := by
  rcases ops with _ | ⟨dst, _ | ⟨second, rest⟩⟩
  · exact .badOperandCount
  · cases dst with
    | mem dst =>
      refine .regOrMem ?_
      exact digitForm_addsPrefix hsize (hops.memory (by simp) (by simp)) _ _ _
    | _ => exact absurd hops.hasMemory (by simp)
  · exact .badOperandCount

theorem unary_addsPrefix (op : UnaryOp) : AddsPrefix size fun setting => setting.unary op ops := by
  rcases ops with _ | ⟨dst, _ | ⟨second, rest⟩⟩
  · exact .badOperandCount
  · cases dst with
    | mem dst =>
      refine .regOrMem ?_
      exact digitForm_addsPrefix hsize (hops.memory (by simp) (by simp)) _ _ _
    | _ => exact absurd hops.hasMemory (by simp)
  · exact .badOperandCount

theorem shift_addsPrefix (op : ShiftOp) : AddsPrefix size fun setting => setting.shift op ops := by
  rcases ops with _ | ⟨dst, _ | ⟨count, _ | ⟨third, rest⟩⟩⟩
  · exact .badOperandCount
  · exact .badOperandCount
  · cases dst with
    | mem dst =>
      cases count with
      | imm value bits =>
        refine .regOrMem (.ite ?_ .noMatchingForm)
        exact digitForm_addsPrefix hsize (hops.memory (by simp) (by simp)) _ _ _
      | reg reg =>
        refine .regOrMem (.ite ?_ .noMatchingForm)
        exact digitForm_addsPrefix hsize (hops.memory (by simp) (by simp)) _ _ _
      | _ => exact .regOrMem .noMatchingForm
    | reg dst =>
      cases count with
      | mem count =>
        -- The register is checked before the count is refused.
        have hdst : dst.isLegacy := hops.reg (by simp)
        simp only [AddsPrefix, shift, regOrMem, checkRegOrMem, checkRegister_congr_mode hdst]
        exact .bind fun _ _ => .noMatchingForm
      | _ => exact absurd hops.hasMemory (by simp)
    | _ => exact .noMatchingForm
  · exact .badOperandCount

theorem imul_addsPrefix : AddsPrefix size fun setting => setting.imul ops := by
  refine .ite .noMatchingForm ?_
  rcases ops with _ | ⟨dst, _ | ⟨src, _ | ⟨third, _ | ⟨fourth, rest⟩⟩⟩⟩
  · exact .badOperandCount
  · cases dst <;> exact .badOperandCount
  · cases dst with
    | reg dst =>
      cases src with
      | mem src =>
        obtain ⟨hdst, hsrc⟩ := hops.regMem
        have hwide : decide (size = .qword) = false := decide_eq_false hsize
        refine .register hdst (.regOrMem ?_)
        rw [hwide]
        exact .withModRm (.reg hdst) hsrc
      | _ => exact absurd hops.hasMemory (by simp)
    | _ => exact .noMatchingForm
  · cases dst with
    | reg dst =>
      cases third with
      | imm value bits =>
        cases src with
        | mem src =>
          have hdst : dst.isLegacy := hops.reg (by simp)
          have hsrc : src.IsLegacy := hops.memory (by simp) (by simp)
          refine .register hdst (.regOrMem (.ite ?_ (.ite ?_ .noMatchingForm)))
          · exact regForm_addsPrefix hsize hsrc _ hdst _
          · exact regForm_addsPrefix hsize hsrc _ hdst _
        | _ => exact absurd hops.hasMemory (by simp)
      | _ => exact .noMatchingForm
    | _ => exact .noMatchingForm
  · cases dst <;> cases third <;> exact .badOperandCount

theorem layout_addsPrefix {operation : Operation} (hkeeps : operation.keepsSize) :
    AddsPrefix size fun setting => setting.layout operation ops := by
  cases operation with
  | alu op => exact alu_addsPrefix hsize hops op
  | mov => exact mov_addsPrefix hsize hops
  | lea => exact lea_addsPrefix hsize hops
  | test => exact test_addsPrefix hsize hops
  | step op => exact step_addsPrefix hsize hops op
  | unary op => exact unary_addsPrefix hsize hops op
  | shift op => exact shift_addsPrefix hsize hops op
  | imul => exact imul_addsPrefix hsize hops
  | _ => cases hkeeps

end Families

end Setting

/-! ### Instructions -/

theorem Reads.registers_eq {asked : ResolvedOperand} {op : Operand} (h : Reads asked op) :
    op.registers = operandRegisters asked := by
  cases h with
  | reg hreg => rw [Operand.registers, operandRegisters, hreg, Option.toList_some]
  | mem haddress =>
    obtain ⟨-, -, rfl⟩ := readAddress_eq_ok_iff.mp haddress
    rfl
  | unsigned | signed | relative => rfl

/-- An address with a base or an index, that is read, names a register. -/
theorem registers_ne_nil_of_readAddress {memory : ResolvedMemory} {address : Memory}
    (hnamed : memory.base ≠ .invalid ∨ memory.index ≠ .invalid)
    (h : readAddress memory = .ok address) : address.registers ≠ [] := by
  obtain ⟨hbase, hindex, rfl⟩ := readAddress_eq_ok_iff.mp h
  rcases hnamed with hnamed | hnamed
  · obtain ⟨base, hbase⟩ := hbase.resolve_left hnamed
    simp [Memory.registers, hbase]
  · obtain ⟨index, hindex⟩ := hindex.resolve_left hnamed
    simp [Memory.registers, hindex]

section Instructions

variable {inst : Instruction}

theorem LegacyInstruction.legacyOperands (h : LegacyInstruction inst) {ops : List Operand}
    (hops : inst.requested.mapM readOperand = .ok ops) : LegacyOperands ops := by
  obtain ⟨hleft, hright⟩ := exists_mem_of_mapM_eq_ok hops
  constructor
  · obtain ⟨memory, hmem, hnamed⟩ := h.addressed
    obtain ⟨op, hop, hread⟩ := hleft _ hmem
    cases readOperand_eq_ok_iff.mp hread with
    | mem haddress => exact ⟨_, hop, registers_ne_nil_of_readAddress hnamed haddress⟩
  · intro op hop reg hreg
    obtain ⟨asked, hasked, hread⟩ := hright op hop
    rw [(readOperand_eq_ok_iff.mp hread).registers_eq] at hreg
    exact h.registers asked hasked reg hreg

/-- The operand sizes that both modes have. -/
theorem exists_ofBits {bits : UInt8} (hbits : bits ∈ [8, 16, 32]) :
    ∃ size : OperandSize, size ≠ .qword ∧ (size = .word ↔ bits = 16)
      ∧ ∀ mode, Setting.ofBits mode bits = .ok ⟨mode, size⟩ := by
  simp only [List.mem_cons, List.not_mem_nil, or_false] at hbits
  rcases hbits with rfl | rfl | rfl
  · exact ⟨.byte, by decide, by decide, fun _ => rfl⟩
  · exact ⟨.word, by decide, by decide, fun _ => rfl⟩
  · exact ⟨.dword, by decide, by decide, fun _ => rfl⟩

theorem layoutOf_addsAddressPrefix (hlegacy : LegacyInstruction inst)
    (hcount : inst.requested.length ≤ operandLimit) {name : String} {operation : Operation}
    (hclass : mnemonic? inst.cls = some (name, operation)) (hkeeps : operation.keepsSize)
    {size : OperandSize} (hsize : size ≠ .qword)
    (hbits : ∀ mode, Setting.ofBits mode inst.operandBits = .ok ⟨mode, size⟩) :
    AddsAddressPrefix size (layoutOf { inst with mode := .mode32 })
      (layoutOf { inst with mode := .mode64 }) := by
  have hlayout (mode : Mode) : layoutOf { inst with mode }
      = inst.requested.mapM readOperand >>= fun ops =>
        (Setting.mk mode size).layout operation ops := by
    have hcarried : { inst with mode }.operands = inst.requested := List.take_of_length_le hcount
    have hcls : mnemonic? { inst with mode }.cls = some (name, operation) := hclass
    have hsetting : Setting.ofBits { inst with mode }.mode { inst with mode }.operandBits
        = .ok ⟨mode, size⟩ := hbits mode
    rw [layoutOf, hcls, hcarried, hsetting]
    rfl
  rw [hlayout, hlayout]
  refine .bind fun ops hops => ?_
  exact Setting.layout_addsPrefix hsize (hlegacy.legacyOperands hops) hkeeps

theorem encode_differsInPrefix (hlegacy : LegacyInstruction inst) {name : String}
    {operation : Operation} (hclass : mnemonic? inst.cls = some (name, operation))
    (hkeeps : operation.keepsSize) (hbits : inst.operandBits ∈ [8, 16, 32]) :
    DiffersInPrefix inst.operandBits (encode { inst with mode := .mode32 })
      (encode { inst with mode := .mode64 }) := by
  by_cases hcount : operandLimit < inst.operandCount
  · have hmany (mode : Mode) : encode { inst with mode } = .error .unrepresentable := if_pos hcount
    rw [hmany, hmany]
    exact .refused _
  have hfew (mode : Mode) : ¬operandLimit < { inst with mode }.operandCount := hcount
  obtain ⟨size, hsize, hword, hsetting⟩ := exists_ofBits hbits
  have hlayouts := layoutOf_addsAddressPrefix hlegacy (Nat.not_lt.mp hcount) hclass hkeeps hsize
    hsetting
  rw [encode, encode, if_neg (hfew _), if_neg (hfew _)]
  generalize layoutOf { inst with mode := .mode32 } = narrow at hlayouts
  generalize layoutOf { inst with mode := .mode64 } = wide at hlayouts
  cases hlayouts with
  | refused code => exact .refused _
  | @written layout hoperand haddress =>
    by_cases hsixteen : inst.operandBits = 16
    · have hprefix : layout.operandPrefix = true := by
        rw [hoperand]
        exact decide_eq_true (hword.mpr hsixteen)
      simp only [Layout.bytes, hprefix, haddress]
      exact .word _ hsixteen
    · have hprefix : layout.operandPrefix = false := by
        rw [hoperand]
        exact decide_eq_false fun h => hsixteen (hword.mp h)
      simp only [Layout.bytes, hprefix, haddress]
      exact .other _ hsixteen

/-- **Legacy registers mean the same in both modes.** An operation on memory whose registers are all
legacy, with operands of at most 32 bits, has one outcome in each mode, whatever the output is. The
two are the same fault, or the same bytes but for the address-size prefix. -/
theorem emit_differsInPrefix (hlegacy : LegacyInstruction inst) {name : String}
    {operation : Operation} (hclass : mnemonic? inst.cls = some (name, operation))
    (hkeeps : operation.keepsSize) (hbits : inst.operandBits ∈ [8, 16, 32]) :
    ∃ narrow wide : Except EngineFault (List UInt8),
      (∀ {room : Nat} (output : Vector UInt8 room),
        Delivers narrow output (engine.emit { inst with mode := .mode32 } output).1
            (engine.emit { inst with mode := .mode32 } output).2
          ∧ Delivers wide output (engine.emit { inst with mode := .mode64 } output).1
            (engine.emit { inst with mode := .mode64 } output).2)
      ∧ DiffersInPrefix inst.operandBits narrow wide :=
  ⟨_, _, fun output => ⟨delivers_emit _ output, delivers_emit _ output⟩,
    encode_differsInPrefix hlegacy hclass hkeeps hbits⟩

/-- ADD of CX to the word at [EBX + ECX*4 + 16]. -/
def addWord : Instruction where
  mode := .mode32
  cls := ⟨1⟩
  operandBits := 16
  requested := [.mem ⟨⟨20⟩, ⟨18⟩, 4, 16, 8, 16⟩, .reg ⟨34⟩]

theorem emit_differsInPrefix_addWord :
    LegacyInstruction addWord ∧ addWord.operandBits ∈ [8, 16, 32]
      ∧ encode { addWord with mode := .mode32 } = .ok [0x66, 0x01, 0x4C, 0x8B, 0x10]
      ∧ encode { addWord with mode := .mode64 } = .ok [0x66, 0x67, 0x01, 0x4C, 0x8B, 0x10]
      ∧ ∃ narrow wide : Except EngineFault (List UInt8),
        (∀ {room : Nat} (output : Vector UInt8 room),
          Delivers narrow output (engine.emit { addWord with mode := .mode32 } output).1
              (engine.emit { addWord with mode := .mode32 } output).2
            ∧ Delivers wide output (engine.emit { addWord with mode := .mode64 } output).1
              (engine.emit { addWord with mode := .mode64 } output).2)
        ∧ DiffersInPrefix addWord.operandBits narrow wide := by
  have hlegacy : LegacyInstruction addWord :=
    { addressed := ⟨_, List.mem_cons_self, by decide⟩
      registers := by decide }
  have hclass : mnemonic? addWord.cls = some ("ADD", .alu .add) := by decide
  have hbits : addWord.operandBits ∈ [8, 16, 32] := by decide
  exact ⟨hlegacy, hbits, by decide +kernel, by decide +kernel,
    emit_differsInPrefix hlegacy hclass (by decide) hbits⟩

end Instructions

end MachineCode.X86
