import MachineCode.Address.Basic
import MachineCode.Request.Slots

/-!
Instruction requests: a mnemonic, operands, an operand size and one address, collected step by step.
An operand that cannot be added is not stored, and the first such misuse is kept until the request
is encoded.
-/

namespace MachineCode

inductive SizeHint where
  | unset
  | bits8
  | bits16
  | bits32
  | bits64
deriving DecidableEq, Repr, Inhabited

namespace SizeHint

def bits? : SizeHint → Option UInt8
  | .unset => none
  | .bits8 => some 8
  | .bits16 => some 16
  | .bits32 => some 32
  | .bits64 => some 64

/-- The operand size that an engine sees. -/
def effectiveBits (hint : SizeHint) : UInt8 := hint.bits?.getD 32

end SizeHint

inductive Misuse where
  | tooManyOperands (max : UInt64)
  | duplicateMemory
  | duplicateImmediate
  | invalidScale (scale : UInt8)
deriving DecidableEq, Repr

def Misuse.message : Misuse → String
  | .tooManyOperands max => s!"too many operands (max {max})"
  | .duplicateMemory => "only one memory operand is supported per instruction"
  | .duplicateImmediate => "only one immediate or relative operand is supported per instruction"
  | .invalidScale scale => s!"invalid memory scale {scale} (expected 1, 2, 4 or 8)"

structure Request where
  mnemonic : String
  operands : OperandSlots := .empty
  size : SizeHint := .unset
  address : Address := {}
  dispPolicy : DispPolicy := .auto
  misuse : Option Misuse := none
deriving DecidableEq, Repr

namespace Request

def new (mnemonic : String) : Request := { mnemonic }

/-- Adds an operand, or says why it is refused. -/
def append (req : Request) (op : Operand) : Except Misuse Request :=
  if op.kind = .mem && req.operands.hasMemory then
    .error .duplicateMemory
  else if op.kind.isImmediate && req.operands.hasImmediate then
    .error .duplicateImmediate
  else
    match req.operands.push op with
    | .ok operands => .ok { req with operands }
    | .error _ => .error (.tooManyOperands (UInt64.ofNat operandLimit))

/-- Keeps a misuse, unless an earlier one is kept already. -/
def latch (req : Request) (misuse : Misuse) : Request :=
  { req with misuse := some (req.misuse.getD misuse) }

def push (req : Request) (op : Operand) : Request :=
  match req.append op with
  | .ok req => req
  | .error misuse => req.latch misuse

/-- Adds a memory operand; its address replaces the present one only if the operand is stored. -/
def pushMemory (req : Request) (width : UInt16) (address : Address) : Request :=
  match req.append (.mem width) with
  | .ok req => { req with address }
  | .error misuse => req.latch misuse

def setSize (req : Request) (size : SizeHint) : Request := { req with size }

def setBase (req : Request) (base : RegisterRef) : Request :=
  { req with address := { req.address with base } }

def setIndex (req : Request) (index : RegisterRef) : Request :=
  { req with address := { req.address with index } }

def setScale (req : Request) (scale : UInt8) : Request :=
  { req with address := { req.address with scale } }

def setDisp (req : Request) (disp : Int32) : Request :=
  { req with address := { req.address with disp } }

def setDispPolicy (req : Request) (dispPolicy : DispPolicy) : Request := { req with dispPolicy }

/-- The text of an operand, with register names and the address of the request. -/
def operandText (engine : Engine) (req : Request) : Operand → String
  | .reg id => (engine.registers.name? id).getD (Operand.reg id).text
  | .mem width => s!"mem{width}[" ++ (req.address.toExpr engine).render ++ "]"
  | op => op.text

/-- The request as a line of assembly, such as `MOV EAX, mem32[ECX+EDX*4]`. -/
def text (engine : Engine) (req : Request) : String :=
  match req.operands.toList.map (req.operandText engine) with
  | [] => req.mnemonic
  | ops => req.mnemonic ++ " " ++ ", ".intercalate ops

/-- The registers of the address, if there is a memory operand that uses it, are ids or names of
letters and digits. -/
def IsAlphanumeric (req : Request) : Prop :=
  req.operands.hasMemory → req.address.base.IsAlphanumeric ∧ req.address.index.IsAlphanumeric

instance : DecidablePred IsAlphanumeric := fun req =>
  inferInstanceAs (Decidable (req.operands.hasMemory →
    req.address.base.IsAlphanumeric ∧ req.address.index.IsAlphanumeric))

end Request

end MachineCode
