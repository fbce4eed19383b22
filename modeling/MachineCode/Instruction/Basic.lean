/-!
What an encoding engine is handed: a machine mode, an instruction class and resolved operands.
Registers and classes are numbers that the engine assigns, and 0 stands for an unknown name.
-/

namespace MachineCode

/-- The processor mode, which sets the default address and stack width. -/
inductive Mode where
  | mode32
  | mode64
deriving DecidableEq, Repr, Inhabited

namespace Mode

def bits : Mode → Nat
  | .mode32 => 32
  | .mode64 => 64

def text : Mode → String
  | .mode32 => "32-bit"
  | .mode64 => "64-bit"

end Mode

structure RegisterId where
  number : UInt16
deriving DecidableEq, Repr

/-- The number of an instruction class: a mnemonic without its operands. -/
structure ClassId where
  number : UInt16
deriving DecidableEq, Repr

def RegisterId.invalid : RegisterId := ⟨0⟩

def RegisterId.isValid (id : RegisterId) : Bool := id ≠ .invalid

def ClassId.invalid : ClassId := ⟨0⟩

def ClassId.isValid (id : ClassId) : Bool := id ≠ .invalid

def operandLimit : Nat := 6

/-- The address and width of a memory operand; an invalid register id stands for no register. -/
structure ResolvedMemory where
  base : RegisterId
  index : RegisterId
  scale : UInt8
  disp : Int64
  dispBits : UInt8
  width : UInt16
deriving DecidableEq, Repr

/-- An operand in which every register name has been replaced by its number. -/
inductive ResolvedOperand where
  | reg (id : RegisterId)
  | unsigned (value : UInt64) (bits : UInt8)
  | signed (value : Int64) (bits : UInt8)
  | mem (memory : ResolvedMemory)
  | relative (disp : Int32) (bits : UInt8)
deriving DecidableEq, Repr

structure Instruction where
  mode : Mode
  cls : ClassId
  operandBits : UInt8
  requested : List ResolvedOperand
deriving DecidableEq, Repr

namespace Instruction

/-- The number of operands asked for, which may exceed what is carried. -/
def operandCount (inst : Instruction) : Nat := inst.requested.length

/-- The operands carried: the first `operandLimit` of those asked for. -/
def operands (inst : Instruction) : List ResolvedOperand := inst.requested.take operandLimit

end Instruction

/-! ### Other addresses

An instruction is a shape, with its memory nowhere, and the address at which it stands. -/

/-- No register and no displacement. -/
def ResolvedMemory.nowhere : ResolvedMemory := ⟨.invalid, .invalid, 0, 0, 0, 0⟩

/-- The operand with its memory, if it is one, at another address; the width of the access stays. -/
def ResolvedOperand.relocate (memory : ResolvedMemory) : ResolvedOperand → ResolvedOperand
  | .mem found => .mem { memory with width := found.width }
  | asked => asked

def Instruction.relocate (memory : ResolvedMemory) (inst : Instruction) : Instruction :=
  { inst with requested := inst.requested.map (ResolvedOperand.relocate memory) }

end MachineCode
