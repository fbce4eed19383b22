import MachineCode.Instruction.Basic

/-!
Encoding engines: tables of register and class names, and a function from instructions to bytes.
-/

namespace MachineCode

inductive RefusalCode where
  | generalError
  | bufferTooShort
  | invalidMode
  | badRegister
  | badClass
  | badOperandCount
  | operandSizeMismatch
  | noMatchingForm
  | badDisplacement
  | badScale
  | highByteWithRex
  | other (number : UInt32)
deriving DecidableEq, Repr

def RefusalCode.name : RefusalCode → String
  | .generalError => "GENERAL_ERROR"
  | .bufferTooShort => "BUFFER_TOO_SHORT"
  | .invalidMode => "INVALID_MODE"
  | .badRegister => "BAD_REGISTER"
  | .badClass => "BAD_ICLASS"
  | .badOperandCount => "BAD_OPERAND_COUNT"
  | .operandSizeMismatch => "OPERAND_SIZE_MISMATCH"
  | .noMatchingForm => "NO_MATCHING_FORM"
  | .badDisplacement => "BAD_DISPLACEMENT"
  | .badScale => "BAD_SCALE"
  | .highByteWithRex => "HIGH_BYTE_WITH_REX"
  | .other _ => "OTHER"

structure Refusal where
  code : RefusalCode
deriving DecidableEq, Repr

def Refusal.message (refusal : Refusal) : String :=
  match refusal.code with
  | .other number => s!"engine error: code {number}"
  | code => "engine error: " ++ code.name

inductive EngineFault where
  /-- The engine has no form for an instruction with so many operands. -/
  | unrepresentable
  | refused (refusal : Refusal)
deriving DecidableEq, Repr

/-- The names of one kind of id. Every unknown name has the invalid id. -/
structure NameTable (Id : Type) where
  find : String → Id
  name? : Id → Option String

/-- An encoding engine. `emit` writes an instruction to the front of a buffer and answers how many
bytes it claims to have written. -/
structure Engine where
  label : String
  registers : NameTable RegisterId
  classes : NameTable ClassId
  /-- A last change to an instruction before it is encoded. -/
  prepare : Instruction → Instruction := id
  emit : Instruction → {size : Nat} → Vector UInt8 size →
    Except EngineFault Nat × Vector UInt8 size

end MachineCode
