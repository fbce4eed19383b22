import MachineCode.Instruction.Basic
import MachineCode.Text.Hex

/-!
Operands of an instruction request, with the text of each.
-/

namespace MachineCode

/-- The nine kinds of value that an instruction can carry in its own bytes. -/
inductive ImmediateKind where
  | uint8 | uint32 | uint64
  | int8 | int16 | int32
  | rel8 | rel16 | rel32
deriving DecidableEq, Repr

namespace ImmediateKind

def bits : ImmediateKind → UInt8
  | .uint8 | .int8 | .rel8 => 8
  | .int16 | .rel16 => 16
  | .uint32 | .int32 | .rel32 => 32
  | .uint64 => 64

def name : ImmediateKind → String
  | .uint8 => "uint8"
  | .uint32 => "uint32"
  | .uint64 => "uint64"
  | .int8 => "int8"
  | .int16 => "int16"
  | .int32 => "int32"
  | .rel8 => "rel8"
  | .rel16 => "rel16"
  | .rel32 => "rel32"

def isRelative : ImmediateKind → Bool
  | .rel8 | .rel16 | .rel32 => true
  | _ => false

def isUnsigned : ImmediateKind → Bool
  | .uint8 | .uint32 | .uint64 => true
  | _ => false

end ImmediateKind

/-- An immediate value or a branch displacement, of a fixed width. -/
inductive Immediate where
  | uint8 (value : UInt8)
  | uint32 (value : UInt32)
  | uint64 (value : UInt64)
  | int8 (value : Int8)
  | int16 (value : Int16)
  | int32 (value : Int32)
  | rel8 (value : Int8)
  | rel16 (value : Int16)
  | rel32 (value : Int32)
deriving DecidableEq, Repr

namespace Immediate

def kind : Immediate → ImmediateKind
  | .uint8 _ => .uint8
  | .uint32 _ => .uint32
  | .uint64 _ => .uint64
  | .int8 _ => .int8
  | .int16 _ => .int16
  | .int32 _ => .int32
  | .rel8 _ => .rel8
  | .rel16 _ => .rel16
  | .rel32 _ => .rel32

def toInt : Immediate → Int
  | .uint8 value => value.toNat
  | .uint32 value => value.toNat
  | .uint64 value => value.toNat
  | .int8 value | .rel8 value => value.toInt
  | .int16 value | .rel16 value => value.toInt
  | .int32 value | .rel32 value => value.toInt

/-- The value widened to 64 bits: unsigned values with zeros, signed values with their sign. -/
def payload : Immediate → UInt64
  | .uint8 value => value.toUInt64
  | .uint32 value => value.toUInt64
  | .uint64 value => value
  | .int8 value | .rel8 value => value.toInt64.toUInt64
  | .int16 value | .rel16 value => value.toInt64.toUInt64
  | .int32 value | .rel32 value => value.toInt64.toUInt64

/-- The kind and the value in hexadecimal, such as `int8(-0x5)`; a branch displacement that is not
negative shows a plus. -/
def text (value : Immediate) : String :=
  let sign :=
    if value.toInt < 0 then "-" else if value.kind.isRelative then "+" else ""
  value.kind.name ++ "(" ++ sign ++ Hex.numeral value.toInt.natAbs ++ ")"

end Immediate

/-- What an operand is, without its value. -/
inductive OperandKind where
  | empty
  | reg
  | mem
  | imm (kind : ImmediateKind)
deriving DecidableEq, Repr

namespace OperandKind

/-- The operand takes the one immediate field of an instruction. -/
def isImmediate : OperandKind → Bool
  | .imm _ => true
  | _ => false

def isRelative : OperandKind → Bool
  | .imm kind => kind.isRelative
  | _ => false

end OperandKind

/-- An operand of a request. A memory operand has only its width here, since a request holds one
address. -/
inductive Operand where
  | empty
  | reg (id : RegisterId)
  | mem (width : UInt16)
  | imm (value : Immediate)
deriving DecidableEq, Repr, Inhabited

namespace Operand

def kind : Operand → OperandKind
  | .empty => .empty
  | .reg _ => .reg
  | .mem _ => .mem
  | .imm value => .imm value.kind

def payload? : Operand → Option UInt64
  | .imm value => some value.payload
  | _ => none

/-- The width in bits of the value or of the memory access. -/
def width? : Operand → Option UInt16
  | .mem width => some width
  | .imm value => some value.kind.bits.toUInt16
  | _ => none

/-- The text of an operand for which no register names and no address are at hand. -/
def text : Operand → String
  | .empty => "<empty>"
  | .reg id => s!"<reg#{id.number}>"
  | .mem width => s!"mem{width}"
  | .imm value => value.text

end Operand

end MachineCode
