import MachineCode.Request.Slots

/-!
Histories of calls on a list of operands. What was pushed since the list was last cleared is kept
apart from the slots.
-/

namespace MachineCode

inductive SlotCall where
  | push (op : Operand)
  | clear
deriving DecidableEq, Repr

namespace SlotCall

/-- The operands pushed since the last clearing, after one more call. -/
def follow (pushed : List Operand) : SlotCall → List Operand
  | .push op => pushed ++ [op]
  | .clear => []

/-- The operands pushed since the last clearing, whether or not they found a slot. -/
def pushed (calls : List SlotCall) : List Operand := calls.foldl follow []

end SlotCall

/-- What a call hands back, and the list that it leaves. -/
structure SlotAnswer where
  refused : Option Operand
  slots : OperandSlots
deriving DecidableEq, Repr

namespace OperandSlots

def answer (ops : OperandSlots) : SlotCall → SlotAnswer
  | .push op =>
    match ops.push op with
    | .ok longer => ⟨none, longer⟩
    | .error refused => ⟨some refused, ops⟩
  | .clear => ⟨none, .empty⟩

/-- The list that is left by a history of calls. -/
def after (ops : OperandSlots) (calls : List SlotCall) : OperandSlots :=
  calls.foldl (fun ops call => (ops.answer call).slots) ops

end OperandSlots

end MachineCode
