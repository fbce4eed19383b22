import MachineCode.X86.Engine

/-!
What the engine is meant to accept, said without the order of its checks: which addresses are legal
in a mode, which operands the two-operand arithmetic group takes, and which instructions both modes
have.
-/

namespace MachineCode.X86

/-! ### Addresses -/

/-- LEA of EAX, which does nothing with a memory operand but form its address. -/
def leaEax (mode : Mode) (memory : ResolvedMemory) : Instruction where
  mode
  cls := engine.classes.find "LEA"
  operandBits := 32
  requested := [.reg (engine.registers.find "EAX"), .mem memory]

/-- The id stands for no register, or for a register of the table. -/
def AbsentOrKnown (id : RegisterId) : Prop :=
  id = .invalid ∨ ∃ reg, Register.ofId? id = some reg

/-- The general-purpose registers of which a mode can form addresses. -/
inductive FormsAddresses : Mode → OperandSize → Register → Prop where
  | qword (number : Fin 16) : FormsAddresses .mode64 .qword (.general .qword number)
  | dword (number : Fin 16) : FormsAddresses .mode64 .dword (.general .dword number)
  | low (number : Fin 16) (hlow : number < 8) :
      FormsAddresses .mode32 .dword (.general .dword number)

/-- The base and the index that an address can have in a mode: general-purpose registers of one
width, or the instruction pointer alone. The index is not the stack pointer, whose number SIB reads
as no index. -/
inductive AddressShape : Mode → Option Register → Option Register → Prop where
  | general {mode : Mode} {base index : Option Register} (size : OperandSize)
      (hregs : ∀ reg ∈ base.toList ++ index.toList, FormsAddresses mode size reg)
      (hindex : ∀ reg ∈ index, reg.name ≠ "RSP" ∧ reg.name ≠ "ESP") :
      AddressShape mode base index
  | rip : AddressShape .mode64 (some .rip) none
  | eip : AddressShape .mode64 (some .eip) none

/-- The displacement can stand behind a base register in a field of so many bits. -/
inductive DispIn (disp : Int64) : UInt8 → Prop where
  | none (hzero : disp = 0) : DispIn disp 0
  | byte (hlow : -128 ≤ disp.toInt) (hhigh : disp.toInt ≤ 127) : DispIn disp 8
  | full : DispIn disp 32

structure LegalAddress (mode : Mode) (memory : ResolvedMemory) : Prop where
  base : AbsentOrKnown memory.base
  index : AbsentOrKnown memory.index
  shape : AddressShape mode (Register.ofId? memory.base) (Register.ofId? memory.index)
  scale : memory.scale ∈ [0, 1, 2, 4, 8]
  disp : -0x80000000 ≤ memory.disp.toInt ∧ memory.disp.toInt < 0x80000000
  /-- Without a base, and beside the instruction pointer, the displacement always has 32 bits. -/
  dispBits : ∀ base ∈ Register.ofId? memory.base, base ≠ .rip → base ≠ .eip →
    DispIn memory.disp memory.dispBits

/-! ### The two-operand arithmetic group -/

def aluNames : List String := ["ADD", "OR", "ADC", "SBB", "AND", "SUB", "XOR", "CMP"]

/-- A register that can be an operand of the size in the mode. -/
structure OperandRegister (mode : Mode) (size : OperandSize) (reg : Register) : Prop where
  kind : reg.isGeneral ∨ reg.isHighByte
  bits : reg.bits = size.bits
  low : mode = .mode32 → reg.isExtended = false ∧ reg.needsRex = false

/-- The widths of an immediate beside an operand of the size. -/
inductive ImmediateIn : OperandSize → UInt8 → Prop where
  | byte (size : OperandSize) : ImmediateIn size 8
  | word : ImmediateIn .word 16
  | dword : ImmediateIn .dword 32
  | qword : ImmediateIn .qword 32

/-- The registers that an address names. -/
def addressRegisters (memory : ResolvedMemory) : List Register :=
  (Register.ofId? memory.base).toList ++ (Register.ofId? memory.index).toList

namespace AluOperand

def IsRegister (mode : Mode) (size : OperandSize) : ResolvedOperand → Prop
  | .reg id => ∃ reg, Register.ofId? id = some reg ∧ OperandRegister mode size reg
  | _ => False

def IsMemory (mode : Mode) (size : OperandSize) : ResolvedOperand → Prop
  | .mem memory =>
    memory.width.toNat = size.bits ∧ ∃ bytes, encode (leaEax mode memory) = .ok bytes
  | _ => False

def IsImmediate (size : OperandSize) : ResolvedOperand → Prop
  | .unsigned _ bits | .signed _ bits => ImmediateIn size bits
  | _ => False

/-- One of AH, CH, DH and BH, which no instruction with a REX prefix can name. -/
def IsHighByte : ResolvedOperand → Prop
  | .reg id => ∃ reg, Register.ofId? id = some reg ∧ reg.isHighByte
  | _ => False

def NeedsRex : ResolvedOperand → Prop
  | .reg id => ∃ reg, Register.ofId? id = some reg ∧ (reg.isExtended ∨ reg.needsRex)
  | .mem memory => ∃ reg ∈ addressRegisters memory, reg.isExtended
  | _ => False

end AluOperand

/-- The operand lists of the group, over what is a register, a memory operand and an immediate. -/
inductive TwoOperands {α : Type} (register memory immediate : α → Prop) : List α → Prop where
  | regReg {dst src : α} (hdst : register dst) (hsrc : register src) :
      TwoOperands register memory immediate [dst, src]
  | memReg {dst src : α} (hdst : memory dst) (hsrc : register src) :
      TwoOperands register memory immediate [dst, src]
  | regMem {dst src : α} (hdst : register dst) (hsrc : memory src) :
      TwoOperands register memory immediate [dst, src]
  | regImm {dst src : α} (hdst : register dst) (hsrc : immediate src) :
      TwoOperands register memory immediate [dst, src]
  | memImm {dst src : α} (hdst : memory dst) (hsrc : immediate src) :
      TwoOperands register memory immediate [dst, src]

/-- What the group accepts: operands of one size, of which none needs the REX prefix that another
one excludes. -/
structure AluAccepts (mode : Mode) (size : OperandSize) (asked : List ResolvedOperand) : Prop where
  mode_of_qword : size = .qword → mode = .mode64
  operands : TwoOperands (AluOperand.IsRegister mode size) (AluOperand.IsMemory mode size)
    (AluOperand.IsImmediate size) asked
  compatible : ∀ high ∈ asked, AluOperand.IsHighByte high →
    ∀ other ∈ asked, ¬AluOperand.NeedsRex other

/-! ### Instructions of both modes -/

/-- A register that 32-bit processors have. -/
def Register.isLegacy (reg : Register) : Bool :=
  reg.bits ≠ 64 && !reg.isExtended && !reg.needsRex && !reg.isPointer

/-- The operations that take the operand size as it is: arithmetic and moves. The stack and the
branches choose their own. -/
def Operation.keepsSize : Operation → Bool
  | .alu _ | .mov | .lea | .test | .step _ | .unary _ | .shift _ | .imul => true
  | _ => false

/-- The registers that an operand names, as far as their ids are known. -/
def operandRegisters : ResolvedOperand → List Register
  | .reg id => (Register.ofId? id).toList
  | .mem memory => addressRegisters memory
  | .unsigned _ _ | .signed _ _ | .relative _ _ => []

/-- An instruction with a memory operand that has a base or an index, and with legacy registers
only. -/
structure LegacyInstruction (inst : Instruction) : Prop where
  addressed : ∃ memory, .mem memory ∈ inst.requested
    ∧ (memory.base ≠ .invalid ∨ memory.index ≠ .invalid)
  registers : ∀ asked ∈ inst.requested, ∀ reg ∈ operandRegisters asked, reg.isLegacy

end MachineCode.X86
