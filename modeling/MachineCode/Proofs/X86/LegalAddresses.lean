import MachineCode.Proofs.X86.Delivery
import MachineCode.Proofs.X86.MemoryForms
import MachineCode.X86.Legality

/-!
# Legal addresses

Which addresses a mode can form. The checks stand in the order in which the bytes are written: the
registers decide the address-size prefix, then comes REX, and only ModR/M looks at the scale and the
displacement. For each of them one theorem says when it passes, and together they pass for the legal
addresses and no others.
-/

namespace MachineCode.X86

/-! ### Registers of an address -/

theorem FormsAddresses.number_ne_four_iff {mode : Mode} {size : OperandSize} {reg : Register}
    (h : FormsAddresses mode size reg) :
    reg.number ≠ 4 ↔ reg.name ≠ "RSP" ∧ reg.name ≠ "ESP" := by
  cases h with
  | qword number => revert number; decide
  | dword number => revert number; decide
  | low number hlow => clear hlow; revert number; decide

theorem FormsAddresses.exists_general {mode : Mode} {size : OperandSize} {reg : Register}
    (h : FormsAddresses mode size reg) : ∃ number, reg = .general size number := by
  cases h <;> exact ⟨_, rfl⟩

theorem FormsAddresses.isPointer_eq_false {mode : Mode} {size : OperandSize} {reg : Register}
    (h : FormsAddresses mode size reg) : reg.isPointer = false := by
  cases h <;> rfl

theorem FormsAddresses.isExtended_eq_false {mode : Mode} {size : OperandSize} {reg : Register}
    (h : FormsAddresses mode size reg) (hmode : mode = .mode32) : reg.isExtended = false := by
  cases h with
  | qword | dword => cases hmode
  | low number hlow => exact decide_eq_false (Nat.not_le.mpr hlow)

theorem formsAddresses_qword {reg : Register} (hgeneral : reg.isGeneral) (hbits : reg.bits = 64) :
    FormsAddresses .mode64 .qword reg := by
  cases reg with
  | general size number =>
    cases size with
    | qword => exact .qword number
    | _ => cases hbits
  | _ => cases hgeneral

theorem formsAddresses_dword {reg : Register} {mode : Mode} (hgeneral : reg.isGeneral)
    (hbits : reg.bits = 32) (hlow : mode = .mode32 → reg.isExtended = false) :
    FormsAddresses mode .dword reg := by
  cases reg with
  | general size number =>
    cases size with
    | dword =>
      cases mode with
      | mode64 => exact .dword number
      | mode32 => exact .low number (Nat.not_le.mp (of_decide_eq_false (hlow rfl)))
    | _ => cases hbits
  | _ => cases hgeneral

/-- An address that has a width has registers of this width, or the instruction pointer alone. -/
theorem Memory.registers_of_addressBits {mem : Memory} {bits : Nat}
    (h : mem.addressBits = .ok (some bits)) :
    (∀ reg ∈ mem.registers, reg.isGeneral ∧ reg.bits = bits)
      ∨ ∃ base, mem.base = some base ∧ base.isPointer ∧ mem.index = none := by
  obtain ⟨-, hbase, hindex⟩ := Memory.addressBits_eq_ok h
  by_cases hpointer : ∃ base, mem.base = some base ∧ base.isPointer ∧ mem.index = none
  · exact .inr hpointer
  refine .inl fun reg hreg => ?_
  rw [registers, List.mem_append, Option.mem_toList, Option.mem_toList] at hreg
  rcases hreg with hreg | hreg
  · rcases hbase reg hreg with ⟨hgeneral, hwidth⟩ | hpointer'
    · exact ⟨hgeneral, (Option.some.inj hwidth).symm⟩
    · exact absurd ⟨reg, hreg, hpointer'⟩ hpointer
  · obtain ⟨hgeneral, -, hwidth⟩ := hindex reg hreg
    exact ⟨hgeneral, (Option.some.inj hwidth).symm⟩

/-- General-purpose registers of one size pass, unless number 4 is the index. -/
theorem Memory.addressBits_of_general {mem : Memory} {size : OperandSize}
    (hregs : ∀ reg ∈ mem.registers, ∃ number, reg = .general size number)
    (hindex : ∀ index, mem.index = some index → index.number ≠ 4) :
    mem.addressBits = .ok (mem.registers.head?.map fun _ => size.bits) := by
  obtain ⟨base, index, scale, disp, dispBits, width⟩ := mem
  cases base with
  | none =>
    cases index with
    | none => rfl
    | some index =>
      obtain ⟨number, rfl⟩ := hregs index (by simp [registers])
      have hnumber := hindex _ rfl
      simp [addressBits, registers, Register.isGeneral, hnumber, Register.bits]
  | some base =>
    obtain ⟨number, rfl⟩ := hregs base (by simp [registers])
    cases index with
    | none => rfl
    | some index =>
      obtain ⟨number, rfl⟩ := hregs index (by simp [registers])
      have hnumber := hindex _ rfl
      simp [addressBits, registers, Register.isGeneral, hnumber, Register.bits]

theorem AddressShape.of_isPointer {base : Register} (h : base.isPointer) :
    AddressShape .mode64 (some base) none := by
  cases base with
  | rip => exact .rip
  | eip => exact .eip
  | _ => cases h

theorem Memory.shape_of_addressPrefix {mem : Memory} {mode : Mode} {addressPrefix : Bool}
    (h : mem.addressPrefix mode = .ok addressPrefix) : AddressShape mode mem.base mem.index := by
  obtain ⟨width, hbits, hmode⟩ := Memory.addressPrefix_eq_ok h
  obtain ⟨hwidth, -, hindex⟩ := Memory.addressBits_eq_ok hbits
  have hgeneral (size : OperandSize) (hregs : ∀ reg ∈ mem.registers, FormsAddresses mode size reg) :
      AddressShape mode mem.base mem.index := by
    refine .general size hregs fun reg hreg => ?_
    have hmem : reg ∈ mem.registers := List.mem_append_right _ (Option.mem_toList.mpr hreg)
    exact (hregs reg hmem).number_ne_four_iff.mp (hindex reg hreg).2.1
  rcases hmode with ⟨rfl, -⟩ | ⟨rfl, rfl, -⟩ | ⟨rfl, rfl, -⟩ | ⟨rfl, rfl, -, hlow⟩
  · have hnil : mem.registers = [] := by simpa using hwidth.symm
    apply hgeneral .dword
    simp [hnil]
  · rcases Memory.registers_of_addressBits hbits with hregs | ⟨base, hbase, hpointer, hnone⟩
    · exact hgeneral .qword fun reg hreg =>
        formsAddresses_qword (hregs reg hreg).1 (hregs reg hreg).2
    · rw [hbase, hnone]
      exact .of_isPointer hpointer
  · rcases Memory.registers_of_addressBits hbits with hregs | ⟨base, hbase, hpointer, hnone⟩
    · exact hgeneral .dword fun reg hreg =>
        formsAddresses_dword (hregs reg hreg).1 (hregs reg hreg).2 nofun
    · rw [hbase, hnone]
      exact .of_isPointer hpointer
  · rcases Memory.registers_of_addressBits hbits with hregs | ⟨base, hbase, hpointer, -⟩
    · exact hgeneral .dword fun reg hreg =>
        formsAddresses_dword (hregs reg hreg).1 (hregs reg hreg).2 fun _ => (hlow reg hreg).1
    · have hmem : base ∈ mem.registers := List.mem_append_left _ (Option.mem_toList.mpr hbase)
      have hplain : base.isPointer = false := (hlow base hmem).2
      rw [hpointer] at hplain
      cases hplain

/-- A mode that forms addresses of registers has a prefix for their width. -/
theorem Memory.exists_addressPrefix_of_bits {mem : Memory} {mode : Mode} {size : OperandSize}
    (hregs : ∀ reg ∈ mem.registers, FormsAddresses mode size reg)
    (hbits : mem.addressBits = .ok (mem.registers.head?.map fun _ => size.bits)) :
    ∃ addressPrefix, mem.addressPrefix mode = .ok addressPrefix := by
  rw [addressPrefix, hbits]
  cases hlist : mem.registers with
  | nil => cases mode <;> exact ⟨_, rfl⟩
  | cons first rest =>
    rw [hlist] at hregs
    cases hregs first List.mem_cons_self with
    | qword number => exact ⟨_, rfl⟩
    | dword number => exact ⟨_, rfl⟩
    | low number hlow =>
      refine ⟨false, if_neg ?_⟩
      rw [List.any_eq_true]
      rintro ⟨reg, hreg, hrefused⟩
      simp [(hregs reg hreg).isExtended_eq_false rfl, (hregs reg hreg).isPointer_eq_false]
        at hrefused

/-- The registers of an address pass for a mode exactly if they have a shape that the mode forms. -/
theorem Memory.exists_addressPrefix_iff {mem : Memory} {mode : Mode} :
    (∃ addressPrefix, mem.addressPrefix mode = .ok addressPrefix)
      ↔ AddressShape mode mem.base mem.index := by
  constructor
  · rintro ⟨addressPrefix, h⟩
    exact Memory.shape_of_addressPrefix h
  · intro hshape
    obtain ⟨base, index, scale, disp, dispBits, width⟩ := mem
    cases hshape with
    | rip => exact ⟨_, rfl⟩
    | eip => exact ⟨_, rfl⟩
    | general size hregs hindex =>
      refine Memory.exists_addressPrefix_of_bits hregs (Memory.addressBits_of_general ?_ ?_)
      · exact fun reg hreg => (hregs reg hreg).exists_general
      · intro reg hreg
        have hmem : reg ∈ base.toList ++ index.toList :=
          List.mem_append_right _ (Option.mem_toList.mpr hreg)
        exact (hregs reg hmem).number_ne_four_iff.mpr (hindex reg hreg)

/-! ### ModR/M -/

theorem Memory.exists_scaleField_iff {mem : Memory} :
    (∃ scale, mem.scaleField? = some scale) ↔ mem.scale ∈ [0, 1, 2, 4, 8] := by
  obtain ⟨base, index, scale, disp, dispBits, width⟩ := mem
  constructor
  · rintro ⟨field, h⟩
    have hscale : scale.toNat ∈ [0, 1, 2, 4, 8] := by
      rw [scaleField?] at h
      split at h <;> simp_all
    simpa [← UInt8.toNat_inj] using hscale
  · intro h
    simp only [List.mem_cons, List.not_mem_nil, or_false] at h
    rcases h with rfl | rfl | rfl | rfl | rfl <;> exact ⟨_, rfl⟩

theorem Memory.exists_dispField_iff {mem : Memory} {base : Register} :
    (∃ field, mem.dispField base = .ok field) ↔ DispIn mem.disp mem.dispBits := by
  obtain ⟨memBase, index, scale, disp, dispBits, width⟩ := mem
  constructor
  · rintro ⟨field, h⟩
    rw [dispField] at h
    split at h
    · rename_i hbits
      obtain rfl : dispBits = 0 := UInt8.toNat_inj.mp hbits
      split at h
      · cases h
      · rename_i hzero
        exact .none (not_not.mp hzero)
    · rename_i hbits
      obtain rfl : dispBits = 8 := UInt8.toNat_inj.mp hbits
      split at h
      · rename_i hrange
        exact .byte hrange.1 hrange.2
      · cases h
    · rename_i hbits
      obtain rfl : dispBits = 32 := UInt8.toNat_inj.mp hbits
      exact .full
    · cases h
  · intro h
    cases h with
    | none hzero =>
      subst hzero
      by_cases hcode : base.code = 5
      · exact ⟨_, if_pos hcode⟩
      · exact ⟨_, if_neg hcode⟩
    | byte hlow hhigh => exact ⟨_, if_pos ⟨hlow, hhigh⟩⟩
    | full => exact ⟨_, rfl⟩

theorem Memory.dispFits_iff {mem : Memory} :
    mem.dispFits ↔ -0x80000000 ≤ mem.disp.toInt ∧ mem.disp.toInt < 0x80000000 := by
  rw [dispFits, Bool.and_eq_true, decide_eq_true_iff, decide_eq_true_iff]

/-- ModR/M can be written, whatever its `reg` field holds, if the scale and the displacement have
fields. The instruction pointer is a base in 64-bit mode only. -/
theorem Memory.exists_modRm_iff {mem : Memory} {mode : Mode} {reg : Fin 8} :
    (∃ fields, mem.modRm mode reg = .ok fields)
      ↔ mem.scale ∈ [0, 1, 2, 4, 8]
        ∧ (-0x80000000 ≤ mem.disp.toInt ∧ mem.disp.toInt < 0x80000000)
        ∧ ∀ base ∈ mem.base, (base.isPointer → mode = .mode64)
          ∧ (base.isPointer = false → DispIn mem.disp mem.dispBits) := by
  rw [← Memory.exists_scaleField_iff, ← Memory.dispFits_iff, modRm]
  cases hscale : mem.scaleField? with
  | none => simp
  | some scale =>
    by_cases hdisp : mem.dispFits
    · cases hbase : mem.base with
      | none => simp [hdisp]
      | some base =>
        cases hpointer : base.isPointer with
        | true => cases mode <;> simp [hdisp, hpointer]
        | false =>
          have hfield : (∃ field, mem.dispField base = .ok field)
              ↔ DispIn mem.disp mem.dispBits := Memory.exists_dispField_iff
          cases hresult : mem.dispField base with
          | error code => simp [hdisp, hpointer, ← hfield, hresult]
          | ok field => simp [hdisp, hpointer, ← hfield, hresult]
    · simp [hdisp]

/-! ### Addresses of a mode -/

/-- The mode can form the address. -/
structure Memory.IsLegal (mem : Memory) (mode : Mode) : Prop where
  shape : AddressShape mode mem.base mem.index
  scale : mem.scale ∈ [0, 1, 2, 4, 8]
  disp : -0x80000000 ≤ mem.disp.toInt ∧ mem.disp.toInt < 0x80000000
  dispBits : ∀ base ∈ mem.base, base ≠ .rip → base ≠ .eip → DispIn mem.disp mem.dispBits

theorem Register.isPointer_eq_false_iff {reg : Register} :
    reg.isPointer = false ↔ reg ≠ .rip ∧ reg ≠ .eip := by
  cases reg <;> simp [isPointer]

theorem AddressShape.mode_of_isPointer {mode : Mode} {base : Register} {index : Option Register}
    (h : AddressShape mode (some base) index) (hpointer : base.isPointer) : mode = .mode64 := by
  cases h with
  | rip | eip => rfl
  | general size hregs hindex =>
    have hplain := (hregs base (by simp)).isPointer_eq_false
    rw [hpointer] at hplain
    cases hplain

theorem Memory.isLegal_iff {mem : Memory} {mode : Mode} (reg : Fin 8) :
    mem.IsLegal mode
      ↔ (∃ addressPrefix, mem.addressPrefix mode = .ok addressPrefix)
        ∧ ∃ fields, mem.modRm mode reg = .ok fields := by
  rw [Memory.exists_addressPrefix_iff, Memory.exists_modRm_iff]
  constructor
  · rintro ⟨hshape, hscale, hdisp, hbits⟩
    refine ⟨hshape, hscale, hdisp, fun base hbase => ⟨fun hpointer => ?_, fun hplain => ?_⟩⟩
    · rw [Option.mem_def.mp hbase] at hshape
      exact hshape.mode_of_isPointer hpointer
    · obtain ⟨hrip, heip⟩ := Register.isPointer_eq_false_iff.mp hplain
      exact hbits base hbase hrip heip
  · rintro ⟨hshape, hscale, hdisp, hbase⟩
    refine ⟨hshape, hscale, hdisp, fun base hmem hrip heip => ?_⟩
    exact (hbase base hmem).2 (Register.isPointer_eq_false_iff.mpr ⟨hrip, heip⟩)

/-- An address of 32-bit mode needs no REX prefix. -/
theorem AddressShape.isExtended_eq_false {base index : Option Register}
    (h : AddressShape .mode32 base index) :
    ∀ reg ∈ base.toList ++ index.toList, reg.isExtended = false := by
  cases h with
  | general size hregs hindex => exact fun reg hreg => (hregs reg hreg).isExtended_eq_false rfl

/-! ### REX -/

theorem Rex.isClear_iff {rex : Rex} :
    rex.isClear ↔ rex.w = false ∧ rex.r = false ∧ rex.x = false ∧ rex.b = false := by
  simp [isClear, and_assoc]

/-- Where 32-bit mode asks for no REX prefix, only a high byte beside one is refused. -/
theorem exists_rexPrefix_iff {mode : Mode} {rex : Rex} {regs : List Register}
    (hlow : mode = .mode32 → rex.isClear ∧ ∀ reg ∈ regs, reg.needsRex = false) :
    (∃ written, rexPrefix mode rex regs = .ok written)
      ↔ ((∃ high ∈ regs, high.isHighByte) →
          rex.isClear ∧ ∀ reg ∈ regs, reg.needsRex = false) := by
  have hclear : (rex.isClear && !regs.any Register.needsRex) = true
      ↔ rex.isClear ∧ ∀ reg ∈ regs, reg.needsRex = false := by
    simp
  rw [rexPrefix]
  by_cases hneeds : rex.isClear ∧ ∀ reg ∈ regs, reg.needsRex = false
  · rw [if_pos (hclear.mpr hneeds)]
    exact ⟨fun _ _ => hneeds, fun _ => ⟨_, rfl⟩⟩
  have hmode : mode ≠ .mode32 := fun h => hneeds (hlow h)
  rw [if_neg (hclear.not.mpr hneeds), if_neg hmode]
  by_cases hhigh : ∃ high ∈ regs, high.isHighByte
  · rw [if_pos (List.any_eq_true.mpr hhigh)]
    simp only [reduceCtorEq, exists_false, false_iff]
    exact fun h => hneeds (h hhigh)
  · rw [if_neg (List.any_eq_true.not.mpr hhigh)]
    exact ⟨fun _ h => absurd h hhigh, fun _ => ⟨_, rfl⟩⟩

/-! ### The form with ModR/M -/

namespace RegOrMem

/-- The registers that the `r/m` field names as operands. -/
def regs : RegOrMem → List Register
  | .reg r => [r]
  | .mem _ => []

/-- The registers that the `r/m` field names, as operands or in an address. -/
def allRegs : RegOrMem → List Register
  | .reg r => [r]
  | .mem m => m.registers

def IsLegal (mode : Mode) : RegOrMem → Prop
  | .reg _ => True
  | .mem m => m.IsLegal mode

/-- The bits that a form asks of REX. -/
def rex (wide : Bool) (field : RegFieldUse) : RegOrMem → Rex
  | .reg r => ⟨wide, field.isExtended, false, r.isExtended⟩
  | .mem m => ⟨wide, field.isExtended, m.index.any Register.isExtended,
      m.base.any Register.isExtended⟩

end RegOrMem

/-- A form that asks for no REX prefix: neither for the operand size, nor for the number of a
register, nor to tell a low byte from a high one. -/
structure NeedsNoRex (wide : Bool) (field : RegFieldUse) (target : RegOrMem) : Prop where
  wide : wide = false
  isExtended : ∀ reg ∈ target.allRegs ++ field.regs, reg.isExtended = false
  needsRex : ∀ reg ∈ target.regs ++ field.regs, reg.needsRex = false

theorem RegFieldUse.isExtended_eq_false_iff {field : RegFieldUse} :
    field.isExtended = false ↔ ∀ reg ∈ field.regs, reg.isExtended = false := by
  simp [isExtended]

theorem any_isExtended_eq_false_iff {reg? : Option Register} :
    reg?.any Register.isExtended = false ↔ ∀ reg ∈ reg?.toList, reg.isExtended = false := by
  cases reg? <;> simp

/-- The bits of REX are clear if the form needs neither the wide size nor a fourth register bit. -/
theorem isClear_rex_iff {wide : Bool} {field : RegFieldUse} {target : RegOrMem} :
    (target.rex wide field).isClear
      ↔ wide = false ∧ ∀ reg ∈ target.allRegs ++ field.regs, reg.isExtended = false := by
  simp only [List.forall_mem_append, ← RegFieldUse.isExtended_eq_false_iff]
  cases target with
  | reg r =>
    simp only [RegOrMem.rex, RegOrMem.allRegs, Rex.isClear_iff, List.forall_mem_singleton]
    constructor
    · rintro ⟨hwide, hfield, -, hreg⟩
      exact ⟨hwide, hreg, hfield⟩
    · rintro ⟨hwide, hreg, hfield⟩
      exact ⟨hwide, hfield, trivial, hreg⟩
  | mem m =>
    simp only [RegOrMem.rex, RegOrMem.allRegs, Memory.registers, Rex.isClear_iff,
      List.forall_mem_append, ← any_isExtended_eq_false_iff]
    constructor
    · rintro ⟨hwide, hfield, hindex, hbase⟩
      exact ⟨hwide, ⟨hbase, hindex⟩, hfield⟩
    · rintro ⟨hwide, ⟨hbase, hindex⟩, hfield⟩
      exact ⟨hwide, hfield, hindex, hbase⟩

theorem needsNoRex_iff {wide : Bool} {field : RegFieldUse} {target : RegOrMem} :
    NeedsNoRex wide field target ↔ (target.rex wide field).isClear
      ∧ ∀ reg ∈ target.regs ++ field.regs, reg.needsRex = false := by
  rw [isClear_rex_iff]
  constructor
  · rintro ⟨hwide, hextended, hneeds⟩
    exact ⟨⟨hwide, hextended⟩, hneeds⟩
  · rintro ⟨⟨hwide, hextended⟩, hneeds⟩
    exact ⟨hwide, hextended, hneeds⟩

section Shape

variable {mode : Mode} {size : OperandSize} {wide : Bool} {opcode immediate : List UInt8}
  {field : RegFieldUse} {target : RegOrMem}

theorem isLegal_of_withModRm {layout : Layout}
    (h : withModRm mode size wide opcode field target immediate = .ok layout) :
    target.IsLegal mode := by
  cases target with
  | reg r => trivial
  | mem m =>
    rw [withModRm] at h
    obtain ⟨addressPrefix, hprefix, h⟩ := bind_eq_ok.mp h
    obtain ⟨written, -, h⟩ := bind_eq_ok.mp h
    obtain ⟨fields, hfields, -⟩ := bind_eq_ok.mp h
    exact (Memory.isLegal_iff field.code).mpr ⟨⟨_, hprefix⟩, _, hfields⟩

/-- Of a legal target only the REX prefix can still be refused. -/
theorem exists_withModRm_iff_rexPrefix (hlegal : target.IsLegal mode) :
    (∃ layout, withModRm mode size wide opcode field target immediate = .ok layout)
      ↔ ∃ written, rexPrefix mode (target.rex wide field) (target.regs ++ field.regs)
        = .ok written := by
  cases target with
  | reg r =>
    rw [withModRm, exists_bind_eq_ok]
    constructor
    · rintro ⟨written, hwritten, -⟩
      exact ⟨written, hwritten⟩
    · rintro ⟨written, hwritten⟩
      exact ⟨written, hwritten, _, rfl⟩
  | mem m =>
    obtain ⟨⟨addressPrefix, hprefix⟩, fields, hfields⟩ := (Memory.isLegal_iff field.code).mp hlegal
    rw [withModRm]
    constructor
    · rintro ⟨layout, h⟩
      obtain ⟨_, _, h⟩ := bind_eq_ok.mp h
      obtain ⟨written, hwritten, -⟩ := bind_eq_ok.mp h
      exact ⟨written, hwritten⟩
    · rintro ⟨written, hwritten⟩
      refine exists_bind_eq_ok.mpr ⟨_, hprefix, exists_bind_eq_ok.mpr ⟨_, hwritten, ?_⟩⟩
      exact exists_bind_eq_ok.mpr ⟨_, hfields, _, rfl⟩

/-- A form with ModR/M exists for every legal target, unless one operand is a high byte and REX is
needed for the operand size or another register. -/
theorem exists_withModRm_iff
    (hlow : mode = .mode32 → target.IsLegal mode → NeedsNoRex wide field target) :
    (∃ layout, withModRm mode size wide opcode field target immediate = .ok layout)
      ↔ target.IsLegal mode
        ∧ ((∃ high ∈ target.regs ++ field.regs, high.isHighByte) →
          NeedsNoRex wide field target) := by
  by_cases hlegal : target.IsLegal mode
  · rw [exists_withModRm_iff_rexPrefix hlegal, needsNoRex_iff, exists_rexPrefix_iff]
    · exact ⟨fun h => ⟨hlegal, h⟩, fun h => h.2⟩
    · exact fun hmode => needsNoRex_iff.mp (hlow hmode hlegal)
  · refine iff_of_false ?_ fun h => hlegal h.1
    rintro ⟨layout, h⟩
    exact hlegal (isLegal_of_withModRm h)

end Shape

/-! ### Reading the address -/

theorem exists_readAddressRegister_iff {id : RegisterId} :
    (∃ reg, readAddressRegister id = .ok reg) ↔ AbsentOrKnown id := by
  rw [readAddressRegister, AbsentOrKnown]
  by_cases hvalid : id.isValid
  · have hne : id ≠ .invalid := by simpa [RegisterId.isValid] using hvalid
    rw [if_pos hvalid]
    cases hreg : Register.ofId? id with
    | none => simp [hne, readRegister, hreg]
    | some reg => simp [readRegister, hreg]
  · have heq : id = .invalid := by simpa [RegisterId.isValid] using hvalid
    rw [if_neg hvalid]
    exact ⟨fun _ => .inl heq, fun _ => ⟨_, rfl⟩⟩

theorem readAddress_eq_ok_iff {memory : ResolvedMemory} {address : Memory} :
    readAddress memory = .ok address
      ↔ AbsentOrKnown memory.base ∧ AbsentOrKnown memory.index
        ∧ address = { memory with
            base := Register.ofId? memory.base, index := Register.ofId? memory.index } := by
  rw [← exists_readAddressRegister_iff, ← exists_readAddressRegister_iff, readAddress]
  constructor
  · intro h
    obtain ⟨base, hbase, h⟩ := bind_eq_ok.mp h
    obtain ⟨index, hindex, h⟩ := bind_eq_ok.mp h
    cases h
    refine ⟨⟨base, hbase⟩, ⟨index, hindex⟩, ?_⟩
    rw [readAddressRegister_eq_ok hbase, readAddressRegister_eq_ok hindex]
  · rintro ⟨⟨base, hbase⟩, ⟨index, hindex⟩, rfl⟩
    rw [← readAddressRegister_eq_ok hbase, ← readAddressRegister_eq_ok hindex, hbase]
    simp only [hindex]
    rfl

/-! ### Instructions -/

/-- An instruction has bytes exactly if each of its parts is read and its operation has a form. -/
theorem exists_encode_iff {inst : Instruction} {name : String} {operation : Operation}
    (hclass : mnemonic? inst.cls = some (name, operation)) :
    (∃ bytes, encode inst = .ok bytes)
      ↔ inst.requested.length ≤ operandLimit
        ∧ ∃ ops, inst.requested.mapM readOperand = .ok ops
          ∧ ∃ setting, Setting.ofBits inst.mode inst.operandBits = .ok setting
            ∧ ∃ layout, setting.layout operation ops = .ok layout := by
  by_cases hcount : operandLimit < inst.operandCount
  · have hmany : ¬inst.requested.length ≤ operandLimit := Nat.not_le.mpr hcount
    simp [encode, hcount, hmany]
  have hfew : inst.requested.length ≤ operandLimit := Nat.not_lt.mp hcount
  have hcarried : inst.operands = inst.requested := List.take_of_length_le hfew
  have hlayout : layoutOf inst = inst.requested.mapM readOperand >>= fun ops =>
      Setting.ofBits inst.mode inst.operandBits >>= fun setting =>
        setting.layout operation ops := by
    rw [layoutOf, hclass, hcarried]
  have hencode : (∃ bytes, encode inst = .ok bytes) ↔ ∃ layout, layoutOf inst = .ok layout := by
    rw [encode, if_neg hcount]
    cases layoutOf inst <;> simp
  rw [hencode, hlayout, exists_bind_eq_ok]
  simp only [exists_bind_eq_ok, hfew, true_and]

theorem find_lea : engine.classes.find "LEA" = ⟨10⟩ := by
  decide +kernel

theorem find_eax : engine.registers.find "EAX" = ⟨17⟩ := by
  decide +kernel

theorem readOperand_mem (memory : ResolvedMemory) :
    readOperand (.mem memory) = (readAddress memory).map .mem := by
  rw [readOperand, readAddress]
  cases readAddressRegister memory.base with
  | error => rfl
  | ok base => cases readAddressRegister memory.index <;> rfl

theorem mapM_readOperand_leaEax (mode : Mode) (memory : ResolvedMemory) :
    (leaEax mode memory).requested.mapM readOperand
      = (readAddress memory).map fun address => [.reg (.general .dword 0), .mem address] := by
  have hregister : readOperand (.reg ⟨17⟩) = .ok (.reg (.general .dword 0)) := rfl
  rw [leaEax, find_eax, List.mapM_cons, List.mapM_cons, List.mapM_nil, hregister, readOperand_mem]
  cases readAddress memory <;> rfl

theorem exists_lea_iff {mode : Mode} {address : Memory} :
    (∃ layout, (Setting.mk mode .dword).lea [.reg (.general .dword 0), .mem address] = .ok layout)
      ↔ address.IsLegal mode := by
  have hlea : (Setting.mk mode .dword).lea [.reg (.general .dword 0), .mem address]
      = withModRm mode .dword false [0x8D] (.reg (.general .dword 0)) (.mem address) := by
    cases mode <;> rfl
  rw [hlea, exists_withModRm_iff]
  · refine ⟨fun h => h.1, fun hlegal => ⟨hlegal, ?_⟩⟩
    rintro ⟨high, hmem, hhigh⟩
    obtain rfl : high = .general .dword 0 := List.mem_singleton.mp hmem
    cases hhigh
  · rintro rfl hlegal
    refine ⟨rfl, fun reg hreg => ?_, fun reg hreg => ?_⟩
    · rcases List.mem_append.mp hreg with haddress | hfield
      · exact hlegal.shape.isExtended_eq_false reg haddress
      · obtain rfl : reg = .general .dword 0 := List.mem_singleton.mp hfield
        rfl
    · obtain rfl : reg = .general .dword 0 := List.mem_singleton.mp hreg
      rfl

/-- LEA of EAX looks at nothing but the address. -/
theorem exists_encode_leaEax_iff {mode : Mode} {memory : ResolvedMemory} :
    (∃ bytes, encode (leaEax mode memory) = .ok bytes)
      ↔ ∃ address, readAddress memory = .ok address ∧ address.IsLegal mode := by
  have hclass : mnemonic? (leaEax mode memory).cls = some ("LEA", .lea) := by
    rw [leaEax, find_lea]
    rfl
  have hsetting : Setting.ofBits (leaEax mode memory).mode (leaEax mode memory).operandBits
      = .ok ⟨mode, .dword⟩ := by
    cases mode <;> rfl
  have hcount : (leaEax mode memory).requested.length ≤ operandLimit := Nat.le_of_ble_eq_true rfl
  rw [exists_encode_iff hclass, hsetting, mapM_readOperand_leaEax]
  constructor
  · rintro ⟨-, ops, hops, setting, hsetting, hlayout⟩
    cases hsetting
    cases haddress : readAddress memory with
    | error code => simp [haddress, Except.map] at hops
    | ok address =>
      rw [haddress] at hops
      cases hops
      exact ⟨address, rfl, exists_lea_iff.mp hlayout⟩
  · rintro ⟨address, haddress, hlegal⟩
    rw [haddress]
    exact ⟨hcount, _, rfl, _, rfl, exists_lea_iff.mpr hlegal⟩

/-- **The legal addresses are encoded and no others.** With room for every instruction, LEA of EAX
has bytes exactly if the registers are known and have a shape of the mode, the scale is one of SIB,
and the displacement fits 32 bits and, behind a base register, the width that is asked for. -/
theorem emit_leaEax_iff_legalAddress (mode : Mode) (memory : ResolvedMemory) {room : Nat}
    (hroom : 13 ≤ room) (output : Vector UInt8 room) :
    (∃ count, (engine.emit (leaEax mode memory) output).1 = .ok count)
      ↔ LegalAddress mode memory := by
  rw [exists_emit_iff hroom, exists_encode_leaEax_iff]
  constructor
  · rintro ⟨address, haddress, hshape, hscale, hdisp, hbits⟩
    obtain ⟨hbase, hindex, rfl⟩ := readAddress_eq_ok_iff.mp haddress
    exact ⟨hbase, hindex, hshape, hscale, hdisp, hbits⟩
  · rintro ⟨hbase, hindex, hshape, hscale, hdisp, hbits⟩
    exact ⟨_, readAddress_eq_ok_iff.mpr ⟨hbase, hindex, rfl⟩, hshape, hscale, hdisp, hbits⟩

/-- The address [RBX + R9*8 - 2]. -/
def indexedAddress : ResolvedMemory := ⟨⟨4⟩, ⟨10⟩, 8, -2, 8, 0⟩

theorem emit_leaEax_indexedAddress :
    (engine.emit (leaEax .mode64 indexedAddress) (Vector.replicate 13 0)).1 = .ok 5
      ∧ LegalAddress .mode64 indexedAddress := by
  have hemit : (engine.emit (leaEax .mode64 indexedAddress) (Vector.replicate 13 0)).1 = .ok 5 := by
    decide +kernel
  exact ⟨hemit, (emit_leaEax_iff_legalAddress .mode64 indexedAddress (by decide) _).mp ⟨5, hemit⟩⟩

end MachineCode.X86
