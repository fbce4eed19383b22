import Mathlib.Data.List.Forall2
import MachineCode.Session.Encoder

/-!
What an encoder hands to its engine and what the engine answers, without the memory of the encoder:
the names of a request as the tables give them, the instruction that stands for the request, and the
answer to it.
-/

namespace MachineCode

/-! ### Names -/

/-- The id of a register reference as the tables of an engine give it. -/
def RegisterRef.resolved (engine : Engine) : RegisterRef → RegisterId
  | .none => .invalid
  | .name given => engine.registers.find given
  | .id known => known

/-- The reference, or none if it is to a name that the engine does not know. -/
def RegisterRef.withoutUnknown (engine : Engine) : RegisterRef → RegisterRef
  | .name given => if (engine.registers.find given).isValid then .name given else .none
  | ref => ref

/-- The request with no name in its address that the engine does not know. -/
def Request.withoutUnknown (engine : Engine) (req : Request) : Request :=
  { req with
    address :=
      { req.address with
        base := req.address.base.withoutUnknown engine
        index := req.address.index.withoutUnknown engine } }

/-! ### Instructions -/

/-- The address of a request with its names looked up in the tables of the engine. -/
def Request.resolvedAddress (engine : Engine) (policy : DispPolicy) (req : Request) :
    ResolvedMemory where
  base := req.address.base.resolved engine
  index := req.address.index.resolved engine
  scale := req.address.scale
  disp := req.address.disp.toInt64
  dispBits := (req.dispPolicy.orElse policy).widthFor req.address.disp
  width := 0

/-- The instruction that a request asks for under the settings of an encoder. -/
def Request.instruction? (engine : Engine) (mode : Mode) (policy : DispPolicy) (req : Request) :
    Option Instruction :=
  (req.operands.toList.mapM (Encoder.resolveOperand (req.resolvedAddress engine policy))).map
    fun requested =>
      { mode
        cls := engine.classes.find req.mnemonic
        operandBits := req.size.effectiveBits
        requested }

/-- The least width in bits of a field that holds a displacement, where zero needs none. -/
def leastDispBits (disp : Int) : UInt8 :=
  if disp = 0 then 0 else if -128 ≤ disp ∧ disp ≤ 127 then 8 else 32

/-- The memory operand stands for the address of a request. A field width that the request fixes
goes before one that the encoder fixes. -/
structure ResolvedMemory.StandsFor (engine : Engine) (policy : DispPolicy) (req : Request)
    (memory : ResolvedMemory) : Prop where
  base : memory.base = req.address.base.resolved engine
  index : memory.index = req.address.index.resolved engine
  scale : memory.scale = req.address.scale
  disp : memory.disp.toInt = req.address.disp.toInt
  dispBits : memory.dispBits =
    (req.dispPolicy.bits?.or policy.bits?).getD (leastDispBits req.address.disp.toInt)

/-- The operand stands for one of a request. The kind of an immediate says which of the three forms
of value it takes. -/
inductive ResolvedOperand.StandsFor (engine : Engine) (policy : DispPolicy) (req : Request) :
    Operand → ResolvedOperand → Prop where
  | reg (id : RegisterId) : StandsFor engine policy req (.reg id) (.reg id)
  | unsigned {op : Operand} {kind : ImmediateKind} {value : UInt64} {bits : UInt8}
      (hkind : op.kind = .imm kind) (hunsigned : kind.isUnsigned)
      (hvalue : op.payload? = some value) (hbits : op.width? = some bits.toUInt16) :
      StandsFor engine policy req op (.unsigned value bits)
  | signed {op : Operand} {kind : ImmediateKind} {value : Int64} {bits : UInt8}
      (hkind : op.kind = .imm kind) (hunsigned : kind.isUnsigned = false)
      (hrelative : kind.isRelative = false) (hvalue : op.payload? = some value.toUInt64)
      (hbits : op.width? = some bits.toUInt16) : StandsFor engine policy req op (.signed value bits)
  | relative {op : Operand} {kind : ImmediateKind} {disp : Int32} {bits : UInt8}
      (hkind : op.kind = .imm kind) (hrelative : kind.isRelative)
      (hvalue : op.payload? = some disp.toInt64.toUInt64)
      (hbits : op.width? = some bits.toUInt16) :
      StandsFor engine policy req op (.relative disp bits)
  | mem {width : UInt16} {memory : ResolvedMemory} (haddress : memory.StandsFor engine policy req)
      (hwidth : memory.width = width) : StandsFor engine policy req (.mem width) (.mem memory)

/-- The instruction stands for a request: it holds as many operands as are stored, in their order.
-/
structure Instruction.StandsFor (engine : Engine) (mode : Mode) (policy : DispPolicy)
    (req : Request) (inst : Instruction) : Prop where
  mode : inst.mode = mode
  cls : inst.cls = engine.classes.find req.mnemonic
  operandBits : inst.operandBits = req.size.bits?.getD 32
  count : inst.operandCount = req.operands.size
  operands : List.Forall₂ (ResolvedOperand.StandsFor engine policy req) req.operands.toList
    inst.operands

/-! ### Answers -/

/-- The answer of an engine to an instruction, as an encode call reports it. -/
def Engine.answer (engine : Engine) (inst : Instruction) (buffer : Vector UInt8 bufferSize) :
    Except EncodeFailure (List UInt8) :=
  match engine.emit (engine.prepare inst) buffer with
  | (.error fault, _) => .error (.ofFault fault)
  | (.ok count, buffer) => .ok (buffer.toList.take (min count bufferSize))

/-- The answer of the engine depends on the instruction alone, and so does each byte that it counts:
the engine writes it, whatever stood there. -/
structure Engine.Determined (engine : Engine) : Prop where
  answer_eq (inst : Instruction) (first second : Vector UInt8 bufferSize) :
    (engine.emit inst first).1 = (engine.emit inst second).1
  written_eq {inst : Instruction} {first : Vector UInt8 bufferSize} {count : Nat}
    (hcount : (engine.emit inst first).1 = .ok count) (second : Vector UInt8 bufferSize)
    (index : Fin bufferSize) (hindex : index.val < count) :
    (engine.emit inst first).2[index] = (engine.emit inst second).2[index]

/-- The encoder with another engine in the place of its own. -/
def Encoder.over {engine : Engine} (other : Engine) (enc : Encoder engine) : Encoder other :=
  { mode := enc.mode
    dispPolicy := enc.dispPolicy
    reader := enc.reader
    lexicon := enc.lexicon
    buffer := enc.buffer
    outputSize := enc.outputSize
    lastError := enc.lastError }

/-- The instruction that an event tells the engine was handed. -/
def Event.handed? : Event → Option Instruction
  | .engineCall _ handed => some handed
  | _ => none

/-- The instructions that the engine was handed in an encode call. -/
def Outcome.handed {engine : Engine} (outcome : Outcome engine) : List Instruction :=
  outcome.events.filterMap Event.handed?

end MachineCode
