import MachineCode.X86.Decoder
import MachineCode.X86.Engine

/-!
What the names of the engine and its instructions mean, in the terms in which machine code is read
back.
-/

namespace MachineCode.X86

/-! ### Names -/

/-- The known names are the given ones, in any mixture of cases, and each known id has one of them as
its canonical name. -/
structure Spells {Id : Type} (table : NameTable Id) (isValid : Id → Bool) (names : List String) :
    Prop where
  find_capitals (name : String) : table.find (capitals name) = table.find name
  isValid_find_iff (name : String) : isValid (table.find name) ↔ capitals name ∈ names
  name?_find (name : String) (hname : capitals name ∈ names) :
    table.name? (table.find name) = some (capitals name)
  name?_eq_some_iff (id : Id) (name : String) :
    table.name? id = some name ↔ name ∈ names ∧ table.find name = id

/-! ### Addresses and operands -/

/-- The address that a memory operand stands for. Scale 0 is the factor 1, and without address
registers the width is that of the mode. -/
def Memory.effective (mode : Mode) (mem : Memory) : EffectiveAddress where
  base := mem.base
  index := mem.index.map fun index => (index, max mem.scale.toNat 1)
  disp := mem.disp.toInt
  bits := (mem.registers.head?.map Register.bits).getD mode.bits

def Operand.expected (mode : Mode) : Operand → DecodedOperand
  | .reg r => .reg r
  | .mem m => .mem (m.effective mode)
  | .imm value bits => .imm bits.toNat (value.toNat % fieldRange bits.toNat)
  | .rel disp bits => .rel bits.toNat (disp.toUInt32.toNat % fieldRange bits.toNat)

/-- The operands that have to be read back. TEST of a register and memory is written with the
memory operand first, which is the same test. -/
def Operation.expected (operation : Operation) (mode : Mode) (ops : List Operand) :
    List DecodedOperand :=
  match operation, ops with
  | .test, [.reg left, .mem right] => [.mem (right.effective mode), .reg left]
  | _, ops => ops.map (Operand.expected mode)

/-- The operations that work on an operand of a chosen size. -/
def Operation.isSized : Operation → Bool
  | .alu _ | .mov | .lea | .test | .step _ | .unary _ | .shift _ | .imul | .push | .pop => true
  | _ => false

/-- The operand size that an operation takes from its setting. -/
def Operation.requestedSize (operation : Operation) (setting : Setting) :
    Except RefusalCode OperandSize :=
  match operation with
  | .push | .pop => setting.stackSize
  | _ => .ok setting.size

/-- The operand is an immediate of one byte. -/
def Operand.isByteImmediate : Operand → Bool
  | .imm _ bits => bits = 8
  | _ => false

/-- The operands of the one encoding that drops the operand size. -/
def DropsSize (operation : Operation) (ops : List Operand) (bits : UInt8) : Prop :=
  operation = .push ∧ ops.any Operand.isByteImmediate ∧ bits = 16

/-- The operations whose immediate may be narrower than the operand. The processor repeats its top
bit up to the operand size. -/
def Operation.extendsImmediate : Operation → Bool
  | .alu _ | .mov | .test | .imul | .push => true
  | _ => false

/-- A field as the processor extends it to the operand size. -/
def extendedField (bits : UInt8) (field : List UInt8) (size : OperandSize) : BitVec size.bits :=
  (BitVec.ofNat bits.toNat (ofLittleEndian field)).signExtend size.bits

/-! ### Bytes -/

/-- The bytes that an instruction leaves at the front of the buffer. -/
def produced (inst : Instruction) {size : Nat} (buffer : Vector UInt8 size) (count : Nat) :
    List UInt8 :=
  (emit inst buffer).2.toList.take count

end MachineCode.X86
