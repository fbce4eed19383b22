import MachineCode.Request.Operand

/-!
A list of at most `operandLimit` operands, kept in as many slots.
-/

namespace MachineCode

/-- The first `size` slots hold the operands, in the order in which they were pushed. -/
structure OperandSlots where
  slots : Vector Operand operandLimit := Vector.replicate operandLimit .empty
  size : Nat := 0
deriving DecidableEq, Repr

namespace OperandSlots

def empty : OperandSlots := {}

def toList (ops : OperandSlots) : List Operand := ops.slots.toList.take ops.size

def isEmpty (ops : OperandSlots) : Bool := ops.size == 0

/-- Adds an operand at the end; a full list hands it back. -/
def push (ops : OperandSlots) (op : Operand) : Except Operand OperandSlots :=
  if h : ops.size < operandLimit then
    .ok { slots := ops.slots.set ops.size op h, size := ops.size + 1 }
  else
    .error op

def any (ops : OperandSlots) (test : OperandKind → Bool) : Bool :=
  ops.toList.any fun op => test op.kind

def hasMemory (ops : OperandSlots) : Bool := ops.any (· == .mem)

def hasImmediate (ops : OperandSlots) : Bool := ops.any OperandKind.isImmediate

def hasRelative (ops : OperandSlots) : Bool := ops.any OperandKind.isRelative

end OperandSlots

end MachineCode
