import MachineCode.Session.Handover
import MachineCode.X86.Engine

/-!
What a call leaves in its output, and in which bytes the outcomes of two calls differ: by a prefix, by
the field of a displacement, or by a scale that nothing uses.
-/

namespace MachineCode.X86

/-- What a call answers and leaves in the output, when its instruction has the given outcome. -/
def Delivers (outcome : Except EngineFault (List UInt8)) {room : Nat} (before : Vector UInt8 room)
    (answer : Except EngineFault Nat) (after : Vector UInt8 room) : Prop :=
  match outcome with
  | .error fault => answer = .error fault ∧ after = before
  | .ok bytes =>
    if bytes.length ≤ room then
      answer = .ok bytes.length ∧ after.toList = bytes ++ before.toList.drop bytes.length
    else
      answer = .error (.refused ⟨.bufferTooShort⟩) ∧ after = before

/-- What 32-bit mode and 64-bit mode make of one instruction: the same fault, or the same bytes, into
which 64-bit mode inserts 67 behind the prefix of 16-bit operands. -/
inductive DiffersInPrefix (bits : UInt8) :
    Except EngineFault (List UInt8) → Except EngineFault (List UInt8) → Prop where
  | refused (fault : EngineFault) : DiffersInPrefix bits (.error fault) (.error fault)
  | word (rest : List UInt8) (hbits : bits = 16) :
      DiffersInPrefix bits (.ok (0x66 :: rest)) (.ok (0x66 :: 0x67 :: rest))
  | other (bytes : List UInt8) (hbits : bits ≠ 16) :
      DiffersInPrefix bits (.ok bytes) (.ok (0x67 :: bytes))

/-! ### Displacements -/

/-- The fields agree but for `mod` and the displacement, of which the first have no more bytes. -/
structure ModRm.Shortens (short long : ModRm) : Prop where
  reg : short.reg = long.reg
  rm : short.rm = long.rm
  sib : short.sib = long.sib
  length_le : short.disp.length ≤ long.disp.length

/-- The layouts agree but for `mod` and the displacement, of which the first has no more bytes. -/
def Layout.Shortens (short long : Layout) : Prop :=
  ∃ fields other, long.modRm = some other ∧ short = { long with modRm := some fields }
    ∧ fields.Shortens other

/-- The layout of the instruction that a request asks for. -/
def LaysOut (enc : Encoder engine) (req : Request) (layout : Layout) : Prop :=
  ∃ inst, req.instruction? engine enc.mode enc.dispPolicy = some inst ∧ layoutOf inst = .ok layout

/-- The displacement stands behind a base register, in a field of one byte that does not hold it. -/
structure OverflowsByte (policy : DispPolicy) (req : Request) : Prop where
  memory : req.operands.hasMemory
  policy : req.dispPolicy.orElse policy = .bits8
  disp : ¬(-128 ≤ req.address.disp.toInt ∧ req.address.disp.toInt ≤ 127)
  base : ∃ base, Register.ofId? (req.address.base.resolved engine) = some base
    ∧ base ≠ .rip ∧ base ≠ .eip

/-! ### Scales without an index -/

/-- The register of a name, if there is one. -/
def registerNamed? (name : String) : Option Register := Register.ofId? (engine.registers.find name)

/-- The base takes a SIB byte although no index is beside it: RSP, R12, ESP and R12D. -/
def Register.isStackBase (reg : Register) : Bool :=
  reg.isGeneral && (reg.bits = 32 || reg.bits = 64) && reg.code = 4

example : (Register.all.filter Register.isStackBase).map Register.name
    = ["RSP", "R12", "ESP", "R12D"] := by
  decide

/-- The address has a scale that nothing uses, and a base beside which it is written. -/
def WritesUnusedScale (expr : AddressExpr) : Prop :=
  expr.index = "" ∧ 1 < expr.scale ∧ (registerNamed? expr.base).any Register.isStackBase

/-- Both encode calls succeed, and of their bytes one differs: that of a SIB byte whose base stands
alone, in the scale. -/
def DiffersInScale (field : Fin 4) (plain scaled : Except EncodeFailure (List UInt8)) : Prop :=
  ∃ front back, plain = .ok (front ++ 0x24 :: back)
    ∧ scaled = .ok (front ++ UInt8.ofNat (0x24 + 64 * field) :: back)

end MachineCode.X86
