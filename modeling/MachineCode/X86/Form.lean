import MachineCode.X86.Operand
import MachineCode.X86.Operation

/-!
The encoding forms of each operation: from a mode, an operand size and operands to the layout of
one instruction, or the reason why no form fits.
-/

namespace MachineCode.X86

/-- The REX prefix of an instruction, if one is needed. `regs` are the registers that the
instruction names as operands: the high bytes cannot be named beside the prefix. -/
def rexPrefix (mode : Mode) (rex : Rex) (regs : List Register) :
    Except RefusalCode (Option Rex) :=
  if rex.isClear && !regs.any Register.needsRex then
    .ok none
  else if regs.any Register.isHighByte then
    .error .highByteWithRex
  else if mode = .mode32 then
    .error .invalidMode
  else
    .ok (some rex)

/-- An instruction with a ModR/M byte. `wide` sets REX.W. -/
def withModRm (mode : Mode) (size : OperandSize) (wide : Bool) (opcode : List UInt8)
    (field : RegFieldUse) (target : RegOrMem) (immediate : List UInt8 := []) :
    Except RefusalCode Layout :=
  match target with
  | .reg reg => do
    let rex ← rexPrefix mode ⟨wide, field.isExtended, false, reg.isExtended⟩ (reg :: field.regs)
    let modRm := { mod := 3, reg := field.code, rm := reg.code }
    return { operandPrefix := size = .word, rex, opcode, modRm := some modRm, immediate }
  | .mem mem => do
    let addressPrefix ← mem.addressPrefix mode
    let x := mem.index.any Register.isExtended
    let b := mem.base.any Register.isExtended
    let rex ← rexPrefix mode ⟨wide, field.isExtended, x, b⟩ field.regs
    let modRm ← mem.modRm mode field.code
    return {
      operandPrefix := size = .word, addressPrefix, rex, opcode, modRm := some modRm, immediate }

/-- An instruction without ModR/M whose opcode may hold a register in its low bits. -/
def withoutModRm (mode : Mode) (size : OperandSize) (wide : Bool) (opcode : Nat)
    (reg : Option Register) (immediate : List UInt8 := []) : Except RefusalCode Layout := do
  let rex ← rexPrefix mode ⟨wide, false, false, reg.any Register.isExtended⟩ reg.toList
  let code := (reg.map fun reg => reg.code.val).getD 0
  return { operandPrefix := size = .word, rex, opcode := [UInt8.ofNat (opcode + code)], immediate }

def immediateBytes (value : UInt64) (bits : UInt8) : List UInt8 :=
  littleEndian (bits.toNat / 8) value.toNat

/-- INT with an 8-bit interrupt number. -/
def interruptForm : List Operand → Except RefusalCode Layout
  | [.imm value bits] =>
    if bits = 8 then
      .ok { opcode := [0xCD], immediate := immediateBytes value 8 }
    else
      .error .noMatchingForm
  | [_] => .error .noMatchingForm
  | _ => .error .badOperandCount

def systemForm (op : SystemOp) : List Operand → Except RefusalCode Layout
  | [] => .ok { opcode := op.opcode }
  | _ => .error .badOperandCount

namespace Setting

def modRmForm (setting : Setting) (opcode : Nat) (field : RegFieldUse) (target : RegOrMem)
    (immediate : List UInt8 := []) : Except RefusalCode Layout :=
  withModRm setting.mode setting.size (setting.size = .qword) [UInt8.ofNat opcode] field target
    immediate

def accumulatorForm (setting : Setting) (opcode : Nat) (immediate : List UInt8) :
    Except RefusalCode Layout :=
  withoutModRm setting.mode setting.size (setting.size = .qword) opcode none immediate

def register (setting : Setting) (reg : Register) : Except RefusalCode Register :=
  checkRegister setting.mode setting.size reg

def regOrMem (setting : Setting) (op : Operand) : Except RefusalCode RegOrMem :=
  checkRegOrMem setting.mode setting.size op

/-- The form of a register as source or destination beside a register or memory operand. -/
def regPairForm (setting : Setting) (opcode : Nat) (reg : Register) (other : Operand) :
    Except RefusalCode Layout := do
  let reg ← setting.register reg
  let target ← setting.regOrMem other
  setting.modRmForm (opcode + setting.size.wideBit) (.reg reg) target

def alu (setting : Setting) (op : AluOp) : List Operand → Except RefusalCode Layout
  | [.reg dst, .reg src] => setting.regPairForm (8 * op.digit) src (.reg dst)
  | [.mem dst, .reg src] => setting.regPairForm (8 * op.digit) src (.mem dst)
  | [.reg dst, .mem src] => setting.regPairForm (8 * op.digit + 2) dst (.mem src)
  | [dst, .imm value bits] => do
    let target ← setting.regOrMem dst
    let immediate := immediateBytes value bits
    if bits.toNat = setting.size.immediateBits then
      if target.isAccumulator then
        setting.accumulatorForm (8 * op.digit + 4 + setting.size.wideBit) immediate
      else
        setting.modRmForm (0x80 + setting.size.wideBit) (.digit op.digit) target immediate
    else if bits = 8 then
      setting.modRmForm 0x83 (.digit op.digit) target immediate
    else
      .error .noMatchingForm
  | [_, _] => .error .noMatchingForm
  | _ => .error .badOperandCount

/-- MOV of a full-size immediate to a register or memory operand. -/
def movImmediate (setting : Setting) (dst : Operand) (value : UInt64) (bits : UInt8) :
    Except RefusalCode Layout :=
  if bits.toNat = setting.size.immediateBits then do
    let target ← setting.regOrMem dst
    setting.modRmForm (0xC6 + setting.size.wideBit) (.digit 0) target (immediateBytes value bits)
  else
    .error .noMatchingForm

/-- MOV. An immediate as wide as the register goes behind an opcode that holds the register; only
there can it have 64 bits. -/
def mov (setting : Setting) : List Operand → Except RefusalCode Layout
  | [.reg dst, .reg src] => setting.regPairForm 0x88 src (.reg dst)
  | [.mem dst, .reg src] => setting.regPairForm 0x88 src (.mem dst)
  | [.reg dst, .mem src] => setting.regPairForm 0x8A dst (.mem src)
  | [.reg dst, .imm value bits] =>
    if bits.toNat = setting.size.bits then do
      let dst ← setting.register dst
      withoutModRm setting.mode setting.size (setting.size = .qword)
        (0xB0 + 8 * setting.size.wideBit) (some dst) (immediateBytes value bits)
    else
      setting.movImmediate (.reg dst) value bits
  | [.mem dst, .imm value bits] => setting.movImmediate (.mem dst) value bits
  | [_, _] => .error .noMatchingForm
  | _ => .error .badOperandCount

/-- LEA only computes the address, so the width of its memory operand does not matter. -/
def lea (setting : Setting) : List Operand → Except RefusalCode Layout
  | [.reg dst, .mem src] =>
    if setting.size = .byte then
      .error .noMatchingForm
    else do
      let dst ← setting.register dst
      setting.modRmForm 0x8D (.reg dst) (.mem src)
  | [_, _] => .error .noMatchingForm
  | _ => .error .badOperandCount

def test (setting : Setting) : List Operand → Except RefusalCode Layout
  | [.reg left, .reg right] => setting.regPairForm 0x84 right (.reg left)
  | [.mem left, .reg right] => setting.regPairForm 0x84 right (.mem left)
  | [.reg left, .mem right] => setting.regPairForm 0x84 left (.mem right)
  | [left, .imm value bits] =>
    if bits.toNat = setting.size.immediateBits then do
      let target ← setting.regOrMem left
      let immediate := immediateBytes value bits
      if target.isAccumulator then
        setting.accumulatorForm (0xA8 + setting.size.wideBit) immediate
      else
        setting.modRmForm (0xF6 + setting.size.wideBit) (.digit 0) target immediate
    else
      .error .noMatchingForm
  | [_, _] => .error .noMatchingForm
  | _ => .error .badOperandCount

/-- INC and DEC. The short forms that hold a register in the opcode exist in 32-bit mode only; in
64-bit mode their bytes are the REX prefixes. -/
def step (setting : Setting) (op : StepOp) : List Operand → Except RefusalCode Layout
  | [dst] => do
    let target ← setting.regOrMem dst
    match target with
    | .reg reg =>
      if setting.mode = .mode32 ∧ setting.size ≠ .byte then
        withoutModRm setting.mode setting.size false (0x40 + 8 * op.digit) (some reg)
      else
        setting.modRmForm (0xFE + setting.size.wideBit) (.digit op.digit) target
    | .mem _ => setting.modRmForm (0xFE + setting.size.wideBit) (.digit op.digit) target
  | _ => .error .badOperandCount

def unary (setting : Setting) (op : UnaryOp) : List Operand → Except RefusalCode Layout
  | [dst] => do
    let target ← setting.regOrMem dst
    setting.modRmForm (0xF6 + setting.size.wideBit) (.digit op.digit) target
  | _ => .error .badOperandCount

/-- Shifts and rotates, by an 8-bit immediate or by CL. -/
def shift (setting : Setting) (op : ShiftOp) : List Operand → Except RefusalCode Layout
  | [dst, count] => do
    let target ← setting.regOrMem dst
    match count with
    | .imm value bits =>
      if bits = 8 then
        setting.modRmForm (0xC0 + setting.size.wideBit) (.digit op.digit) target
          (immediateBytes value 8)
      else
        .error .noMatchingForm
    | .reg reg =>
      if reg = .general .byte 1 then
        setting.modRmForm (0xD2 + setting.size.wideBit) (.digit op.digit) target
      else
        .error .noMatchingForm
    | _ => .error .noMatchingForm
  | _ => .error .badOperandCount

/-- A stack form with a memory operand; stack instructions need no REX.W. -/
def stackMemory (setting : Setting) (size : OperandSize) (opcode : UInt8) (digit : Fin 8)
    (mem : Memory) : Except RefusalCode Layout := do
  let target ← checkRegOrMem setting.mode size (.mem mem)
  withModRm setting.mode size false [opcode] (.digit digit) target

def stackRegister (setting : Setting) (size : OperandSize) (opcode : Nat) (reg : Register) :
    Except RefusalCode Layout := do
  let reg ← checkRegister setting.mode size reg
  withoutModRm setting.mode size false opcode (some reg)

/-- PUSH. An 8-bit immediate is written without a prefix at every operand size. -/
def push (setting : Setting) (ops : List Operand) : Except RefusalCode Layout := do
  let size ← setting.stackSize
  match ops with
  | [.reg reg] => setting.stackRegister size 0x50 reg
  | [.mem mem] => setting.stackMemory size 0xFF 6 mem
  | [.imm value bits] =>
    if bits = 8 then
      .ok { opcode := [0x6A], immediate := immediateBytes value bits }
    else if bits.toNat = size.immediateBits then
      withoutModRm setting.mode size false 0x68 none (immediateBytes value bits)
    else
      .error .noMatchingForm
  | [_] => .error .noMatchingForm
  | _ => .error .badOperandCount

def pop (setting : Setting) (ops : List Operand) : Except RefusalCode Layout := do
  let size ← setting.stackSize
  match ops with
  | [.reg reg] => setting.stackRegister size 0x58 reg
  | [.mem mem] => setting.stackMemory size 0x8F 0 mem
  | [_] => .error .noMatchingForm
  | _ => .error .badOperandCount

/-- The two- and three-operand forms of IMUL, which have no byte size. -/
def imul (setting : Setting) (ops : List Operand) : Except RefusalCode Layout :=
  if setting.size = .byte then
    .error .noMatchingForm
  else
    match ops with
    | [.reg dst, src] => do
      let dst ← setting.register dst
      let target ← setting.regOrMem src
      withModRm setting.mode setting.size (setting.size = .qword) [0x0F, 0xAF] (.reg dst) target
    | [.reg dst, src, .imm value bits] => do
      let dst ← setting.register dst
      let target ← setting.regOrMem src
      let immediate := immediateBytes value bits
      if bits = 8 then
        setting.modRmForm 0x6B (.reg dst) target immediate
      else if bits.toNat = setting.size.immediateBits then
        setting.modRmForm 0x69 (.reg dst) target immediate
      else
        .error .noMatchingForm
    | [_, _] | [_, _, _] => .error .noMatchingForm
    | _ => .error .badOperandCount

/-- A branch displacement fits a field of `bits` bits. -/
def branchFits (disp : Int32) (bits : Nat) : Bool :=
  -fieldRange (bits - 1) ≤ disp.toInt && disp.toInt < fieldRange (bits - 1)

/-- A relative branch. A 16-bit displacement would cut the instruction pointer in 64-bit mode. -/
def relative (setting : Setting) (short : Option UInt8) (near : List UInt8) (disp : Int32)
    (bits : UInt8) : Except RefusalCode Layout :=
  let field := disp.toUInt32.toNat
  match bits.toNat with
  | 8 =>
    match short with
    | none => .error .noMatchingForm
    | some opcode =>
      if branchFits disp 8 then
        .ok { opcode := [opcode], immediate := littleEndian 1 field }
      else
        .error .badDisplacement
  | 16 =>
    if setting.mode = .mode64 then
      .error .invalidMode
    else if branchFits disp 16 then
      .ok { operandPrefix := true, opcode := near, immediate := littleEndian 2 field }
    else
      .error .badDisplacement
  | 32 => .ok { opcode := near, immediate := littleEndian 4 field }
  | _ => .error .badDisplacement

def indirect (setting : Setting) (digit : Fin 8) (op : Operand) : Except RefusalCode Layout := do
  let target ← checkRegOrMem setting.mode setting.branchSize op
  withModRm setting.mode .dword false [0xFF] (.digit digit) target

/-- JMP and CALL: the relative forms and the indirect form. -/
def branch (setting : Setting) (short : Option UInt8) (near : List UInt8) (digit : Fin 8) :
    List Operand → Except RefusalCode Layout
  | [.rel disp bits] => setting.relative short near disp bits
  | [.reg reg] => setting.indirect digit (.reg reg)
  | [.mem mem] => setting.indirect digit (.mem mem)
  | [_] => .error .noMatchingForm
  | _ => .error .badOperandCount

def jumpIf (setting : Setting) (condition : Fin 16) : List Operand → Except RefusalCode Layout
  | [.rel disp bits] =>
    setting.relative (some (UInt8.ofNat (0x70 + condition)))
      [0x0F, UInt8.ofNat (0x80 + condition)] disp bits
  | [_] => .error .noMatchingForm
  | _ => .error .badOperandCount

def layout (setting : Setting) (operation : Operation) (ops : List Operand) :
    Except RefusalCode Layout :=
  match operation with
  | .alu op => setting.alu op ops
  | .mov => setting.mov ops
  | .lea => setting.lea ops
  | .test => setting.test ops
  | .step op => setting.step op ops
  | .unary op => setting.unary op ops
  | .shift op => setting.shift op ops
  | .push => setting.push ops
  | .pop => setting.pop ops
  | .imul => setting.imul ops
  | .jmp => setting.branch (some 0xEB) [0xE9] 4 ops
  | .call => setting.branch none [0xE8] 2 ops
  | .jumpIf condition => setting.jumpIf condition ops
  | .int => interruptForm ops
  | .system op => systemForm op ops

end Setting

end MachineCode.X86
