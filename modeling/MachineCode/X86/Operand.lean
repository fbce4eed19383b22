import MachineCode.X86.Memory

/-!
The operands of x86 instructions, and which of them an operand size and a mode admit.
-/

namespace MachineCode.X86

inductive Operand where
  | reg (reg : Register)
  | mem (mem : Memory)
  | imm (value : UInt64) (bits : UInt8)
  | rel (disp : Int32) (bits : UInt8)
deriving DecidableEq, Repr

/-- What the `r/m` field of ModR/M can name. -/
inductive RegOrMem where
  | reg (reg : Register)
  | mem (mem : Memory)
deriving DecidableEq, Repr

def RegOrMem.isAccumulator : RegOrMem → Bool
  | .reg r => r.number = 0
  | .mem _ => false

/-- What the `reg` field of ModR/M holds: a register, or more of the opcode. -/
inductive RegFieldUse where
  | reg (reg : Register)
  | digit (digit : Fin 8)
deriving DecidableEq, Repr

def RegFieldUse.code : RegFieldUse → Fin 8
  | .reg r => r.code
  | .digit d => d

def RegFieldUse.regs : RegFieldUse → List Register
  | .reg r => [r]
  | .digit _ => []

def RegFieldUse.isExtended (field : RegFieldUse) : Bool := field.regs.any Register.isExtended

/-- The mode and operand size for which an instruction is laid out. -/
structure Setting where
  mode : Mode
  size : OperandSize
deriving DecidableEq, Repr

namespace Setting

/-- The operand size of a number of bits; 64 bits only exist in 64-bit mode. -/
def ofBits (mode : Mode) (bits : UInt8) : Except RefusalCode Setting :=
  match bits.toNat, mode with
  | 8, _ => .ok ⟨mode, .byte⟩
  | 16, _ => .ok ⟨mode, .word⟩
  | 32, _ => .ok ⟨mode, .dword⟩
  | 64, .mode64 => .ok ⟨mode, .qword⟩
  | 64, .mode32 => .error .invalidMode
  | _, _ => .error .operandSizeMismatch

/-- The operand size of stack instructions, which in 64-bit mode have no 32-bit form. -/
def stackSize (setting : Setting) : Except RefusalCode OperandSize :=
  match setting.mode, setting.size with
  | .mode64, .dword | .mode64, .qword => .ok .qword
  | .mode32, .dword => .ok .dword
  | _, .word => .ok .word
  | _, _ => .error .operandSizeMismatch

/-- The operand size of an indirect branch target. -/
def branchSize (setting : Setting) : OperandSize :=
  match setting.mode with
  | .mode64 => .qword
  | .mode32 => .dword

end Setting

/-- A register that can be an operand of the given size in the mode. -/
def checkRegister (mode : Mode) (size : OperandSize) (reg : Register) :
    Except RefusalCode Register :=
  if !(reg.isGeneral || reg.isHighByte) then
    .error .badRegister
  else if mode = .mode32 && (reg.bits = 64 || reg.isExtended || reg.needsRex) then
    .error .invalidMode
  else if reg.bits ≠ size.bits then
    .error .operandSizeMismatch
  else
    .ok reg

def checkRegOrMem (mode : Mode) (size : OperandSize) : Operand → Except RefusalCode RegOrMem
  | .reg reg => return .reg (← checkRegister mode size reg)
  | .mem mem =>
    if mem.width.toNat ≠ size.bits then .error .operandSizeMismatch else .ok (.mem mem)
  | _ => .error .noMatchingForm

end MachineCode.X86
