import MachineCode.Request.Basic

/-!
The ways in which an encode call fails.
-/

namespace MachineCode

inductive EncodeFailure where
  | mnemonicTooLong (length max : UInt64)
  /-- More operands than an instruction carries; the slots of a request never hold so many. -/
  | operandCount (count : UInt64)
  | misused (misuse : Misuse)
  /-- The engine, or an empty slot among the operands, left no instruction to encode. -/
  | unrepresentable
  | refused (refusal : Refusal)
deriving DecidableEq, Repr

namespace EncodeFailure

/-- The request was rejected before an engine was asked. -/
def isLocal : EncodeFailure → Bool
  | .mnemonicTooLong _ _ | .operandCount _ | .misused _ => true
  | .unrepresentable | .refused _ => false

/-- The message of the cause that lies behind the failure. -/
def cause? : EncodeFailure → Option String
  | .misused misuse => some misuse.message
  | .refused refusal => some refusal.message
  | _ => none

def message : EncodeFailure → String
  | .mnemonicTooLong length max => s!"instruction name too long ({length} bytes, max {max})"
  | .operandCount count => s!"invalid operand count {count}"
  | .misused misuse => "usage error: " ++ misuse.message
  | .unrepresentable => "encoder: request conversion failed"
  | .refused refusal => refusal.message

def ofFault : EngineFault → EncodeFailure
  | .unrepresentable => .unrepresentable
  | .refused refusal => .refused refusal

end EncodeFailure

end MachineCode
