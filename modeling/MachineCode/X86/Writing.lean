import MachineCode.X86.Engine

/-!
Instructions written byte by byte. The bytes go to a scratch area of sixteen bytes, checks stand
between them, and the output receives the scratch area after the last byte. A byte that does not fit
the scratch area, a field wider than its value and an opcode beyond a byte crash the writing, which
is no refusal.
-/

namespace MachineCode.X86

def scratchSize : Nat := 16

inductive Crash where
  | scratchFull
  | fieldTooWide
  | opcodeTooLarge
deriving DecidableEq, Repr

/-- Why a writing ends before its last byte. -/
inductive Stop where
  | fault (fault : EngineFault)
  | crash (crash : Crash)
deriving DecidableEq, Repr

structure Workspace (room : Nat) where
  scratch : List UInt8
  output : Vector UInt8 room
deriving DecidableEq, Repr

abbrev Writing (room : Nat) := EStateM Stop (Workspace room)

namespace Writing

variable {room : Nat} {α : Type}

def refuse (code : RefusalCode) : Writing room α := throw (.fault (.refused ⟨code⟩))

def crash (reason : Crash) : Writing room α := throw (.crash reason)

/-- The result of a check, or the end of the writing. -/
def check : Except RefusalCode α → Writing room α
  | .ok a => pure a
  | .error code => refuse code

def push (byte : UInt8) : Writing room Unit := do
  let space ← get
  if space.scratch.length < scratchSize then
    set { space with scratch := space.scratch ++ [byte] }
  else
    crash .scratchFull

def pushAll : List UInt8 → Writing room Unit
  | [] => pure ()
  | byte :: rest => do
    push byte
    pushAll rest

def pushWhen (wanted : Bool) (byte : UInt8) : Writing room Unit :=
  if wanted then push byte else pure ()

/-- The opcode byte of a sum. Its summands are not negative, so no part of it is larger. -/
def opcodeByte (sum : Nat) : Writing room UInt8 :=
  if sum < 256 then pure (UInt8.ofNat sum) else crash .opcodeTooLarge

/-- The low bytes of a value of 64 bits, as many as the field has. -/
def pushImmediate (value : UInt64) (bits : UInt8) : Writing room Unit :=
  if bits.toNat / 8 ≤ 8 then
    pushAll (littleEndian (bits.toNat / 8) value.toNat)
  else
    crash .fieldTooWide

/-- The scratch area is moved to the front of the output, if the output has room for it. -/
def deliver : Writing room Nat := do
  let space ← get
  if space.scratch.length ≤ room then
    set { space with output := overwrite space.output space.scratch }
    return space.scratch.length
  else
    refuse .bufferTooShort

/-- Prefixes, REX, opcode, ModR/M, SIB and displacement. The address registers are checked before
the first byte, the scale and the displacement behind the opcode. -/
def modRm (mode : Mode) (size : OperandSize) (wide : Bool) (opcode : List UInt8)
    (field : RegFieldUse) : RegOrMem → Writing room Unit
  | .reg reg => do
    pushWhen (size = .word) 0x66
    let rex ← check (rexPrefix mode ⟨wide, field.isExtended, false, reg.isExtended⟩
      (reg :: field.regs))
    pushAll (rex.map Rex.byte).toList
    pushAll opcode
    pushAll (ModRm.bytes { mod := 3, reg := field.code, rm := reg.code })
  | .mem mem => do
    let addressPrefix ← check (mem.addressPrefix mode)
    pushWhen (size = .word) 0x66
    pushWhen addressPrefix 0x67
    let x := mem.index.any Register.isExtended
    let b := mem.base.any Register.isExtended
    let rex ← check (rexPrefix mode ⟨wide, field.isExtended, x, b⟩ field.regs)
    pushAll (rex.map Rex.byte).toList
    pushAll opcode
    let fields ← check (mem.modRm mode field.code)
    pushAll fields.bytes

/-- The prefixes of an instruction without ModR/M. -/
def prefixes (mode : Mode) (size : OperandSize) (wide : Bool) (reg : Option Register) :
    Writing room Unit := do
  pushWhen (size = .word) 0x66
  let rex ← check (rexPrefix mode ⟨wide, false, false, reg.any Register.isExtended⟩ reg.toList)
  pushAll (rex.map Rex.byte).toList

def interrupt : List Operand → Writing room Unit
  | [.imm value bits] =>
    if bits = 8 then do
      push 0xCD
      push value.toUInt8
    else
      refuse .noMatchingForm
  | [_] => refuse .noMatchingForm
  | _ => refuse .badOperandCount

def system (op : SystemOp) : List Operand → Writing room Unit
  | [] => pushAll op.opcode
  | _ => refuse .badOperandCount

section Families

variable (setting : Setting)

def form (opcode : Nat) (field : RegFieldUse) (target : RegOrMem) : Writing room Unit := do
  let opcode ← opcodeByte opcode
  modRm setting.mode setting.size (setting.size = .qword) [opcode] field target

def accumulator (opcode : Nat) : Writing room Unit := do
  prefixes setting.mode setting.size (setting.size = .qword) none
  push (← opcodeByte opcode)

def regPair (opcode : Nat) (reg : Register) (other : Operand) : Writing room Unit := do
  let reg ← check (setting.register reg)
  let target ← check (setting.regOrMem other)
  form setting (opcode + setting.size.wideBit) (.reg reg) target

def alu (op : AluOp) : List Operand → Writing room Unit
  | [.reg dst, .reg src] => regPair setting (8 * op.digit) src (.reg dst)
  | [.mem dst, .reg src] => regPair setting (8 * op.digit) src (.mem dst)
  | [.reg dst, .mem src] => regPair setting (8 * op.digit + 2) dst (.mem src)
  | [dst, .imm value bits] => do
    let target ← check (setting.regOrMem dst)
    if bits.toNat = setting.size.immediateBits then
      if target.isAccumulator then do
        accumulator setting (8 * op.digit + 4 + setting.size.wideBit)
        pushImmediate value bits
      else do
        form setting (0x80 + setting.size.wideBit) (.digit op.digit) target
        pushImmediate value bits
    else if bits = 8 then do
      form setting 0x83 (.digit op.digit) target
      pushImmediate value bits
    else
      refuse .noMatchingForm
  | [_, _] => refuse .noMatchingForm
  | _ => refuse .badOperandCount

def movImmediate (dst : Operand) (value : UInt64) (bits : UInt8) : Writing room Unit :=
  if bits.toNat = setting.size.immediateBits then do
    let target ← check (setting.regOrMem dst)
    form setting (0xC6 + setting.size.wideBit) (.digit 0) target
    pushImmediate value bits
  else
    refuse .noMatchingForm

def mov : List Operand → Writing room Unit
  | [.reg dst, .reg src] => regPair setting 0x88 src (.reg dst)
  | [.mem dst, .reg src] => regPair setting 0x88 src (.mem dst)
  | [.reg dst, .mem src] => regPair setting 0x8A dst (.mem src)
  | [.reg dst, .imm value bits] =>
    if bits.toNat = setting.size.bits then do
      let dst ← check (setting.register dst)
      prefixes setting.mode setting.size (setting.size = .qword) (some dst)
      push (← opcodeByte (0xB0 + 8 * setting.size.wideBit + dst.code))
      pushImmediate value bits
    else
      movImmediate setting (.reg dst) value bits
  | [.mem dst, .imm value bits] => movImmediate setting (.mem dst) value bits
  | [_, _] => refuse .noMatchingForm
  | _ => refuse .badOperandCount

def lea : List Operand → Writing room Unit
  | [.reg dst, .mem src] =>
    if setting.size = .byte then
      refuse .noMatchingForm
    else do
      let dst ← check (setting.register dst)
      form setting 0x8D (.reg dst) (.mem src)
  | [_, _] => refuse .noMatchingForm
  | _ => refuse .badOperandCount

def test : List Operand → Writing room Unit
  | [.reg left, .reg right] => regPair setting 0x84 right (.reg left)
  | [.mem left, .reg right] => regPair setting 0x84 right (.mem left)
  | [.reg left, .mem right] => regPair setting 0x84 left (.mem right)
  | [left, .imm value bits] =>
    if bits.toNat = setting.size.immediateBits then do
      let target ← check (setting.regOrMem left)
      if target.isAccumulator then do
        accumulator setting (0xA8 + setting.size.wideBit)
        pushImmediate value bits
      else do
        form setting (0xF6 + setting.size.wideBit) (.digit 0) target
        pushImmediate value bits
    else
      refuse .noMatchingForm
  | [_, _] => refuse .noMatchingForm
  | _ => refuse .badOperandCount

/-- INC and DEC. The short forms write their prefixes without regard to the register, since no
register of 32-bit mode needs REX. -/
def step (op : StepOp) : List Operand → Writing room Unit
  | [dst] => do
    let target ← check (setting.regOrMem dst)
    match target with
    | .reg reg =>
      if setting.mode = .mode32 ∧ setting.size ≠ .byte then do
        prefixes setting.mode setting.size (setting.size = .qword) none
        push (← opcodeByte (0x40 + 8 * op.digit + reg.code))
      else
        form setting (0xFE + setting.size.wideBit) (.digit op.digit) target
    | .mem _ => form setting (0xFE + setting.size.wideBit) (.digit op.digit) target
  | _ => refuse .badOperandCount

def unary (op : UnaryOp) : List Operand → Writing room Unit
  | [dst] => do
    let target ← check (setting.regOrMem dst)
    form setting (0xF6 + setting.size.wideBit) (.digit op.digit) target
  | _ => refuse .badOperandCount

def shift (op : ShiftOp) : List Operand → Writing room Unit
  | [dst, count] => do
    let target ← check (setting.regOrMem dst)
    match count with
    | .imm value bits =>
      if bits = 8 then do
        form setting (0xC0 + setting.size.wideBit) (.digit op.digit) target
        push value.toUInt8
      else
        refuse .noMatchingForm
    | .reg reg =>
      if reg = .general .byte 1 then
        form setting (0xD2 + setting.size.wideBit) (.digit op.digit) target
      else
        refuse .noMatchingForm
    | _ => refuse .noMatchingForm
  | _ => refuse .badOperandCount

def stackMemory (size : OperandSize) (opcode : UInt8) (digit : Fin 8) (mem : Memory) :
    Writing room Unit := do
  let target ← check (checkRegOrMem setting.mode size (.mem mem))
  modRm setting.mode size false [opcode] (.digit digit) target

def stackRegister (size : OperandSize) (opcode : Nat) (reg : Register) : Writing room Unit := do
  let reg ← check (checkRegister setting.mode size reg)
  prefixes setting.mode size false (some reg)
  push (← opcodeByte (opcode + reg.code))

def stackPush (ops : List Operand) : Writing room Unit := do
  let size ← check setting.stackSize
  match ops with
  | [.reg reg] => stackRegister setting size 0x50 reg
  | [.mem mem] => stackMemory setting size 0xFF 6 mem
  | [.imm value bits] =>
    if bits = 8 then do
      push 0x6A
      pushImmediate value 8
    else if bits.toNat = size.immediateBits then do
      prefixes setting.mode size false none
      push 0x68
      pushImmediate value bits
    else
      refuse .noMatchingForm
  | [_] => refuse .noMatchingForm
  | _ => refuse .badOperandCount

def stackPop (ops : List Operand) : Writing room Unit := do
  let size ← check setting.stackSize
  match ops with
  | [.reg reg] => stackRegister setting size 0x58 reg
  | [.mem mem] => stackMemory setting size 0x8F 0 mem
  | [_] => refuse .noMatchingForm
  | _ => refuse .badOperandCount

def imul (ops : List Operand) : Writing room Unit :=
  if setting.size = .byte then
    refuse .noMatchingForm
  else
    match ops with
    | [.reg dst, src] => do
      let dst ← check (setting.register dst)
      let target ← check (setting.regOrMem src)
      modRm setting.mode setting.size (setting.size = .qword) [0x0F, 0xAF] (.reg dst) target
    | [.reg dst, src, .imm value bits] => do
      let dst ← check (setting.register dst)
      let target ← check (setting.regOrMem src)
      if bits = 8 then do
        form setting 0x6B (.reg dst) target
        pushImmediate value bits
      else if bits.toNat = setting.size.immediateBits then do
        form setting 0x69 (.reg dst) target
        pushImmediate value bits
      else
        refuse .noMatchingForm
    | [_, _] | [_, _, _] => refuse .noMatchingForm
    | _ => refuse .badOperandCount

def relative (short : Option UInt8) (near : List UInt8) (disp : Int32) (bits : UInt8) :
    Writing room Unit :=
  match bits.toNat with
  | 8 =>
    match short with
    | none => refuse .noMatchingForm
    | some opcode =>
      if Setting.branchFits disp 8 then do
        push opcode
        push disp.toUInt32.toUInt8
      else
        refuse .badDisplacement
  | 16 =>
    if setting.mode = .mode64 then
      refuse .invalidMode
    else if Setting.branchFits disp 16 then do
      push 0x66
      pushAll near
      pushAll (littleEndian 2 disp.toUInt32.toNat)
    else
      refuse .badDisplacement
  | 32 => do
    pushAll near
    pushAll (littleEndian 4 disp.toUInt32.toNat)
  | _ => refuse .badDisplacement

def indirect (digit : Fin 8) (op : Operand) : Writing room Unit := do
  let target ← check (checkRegOrMem setting.mode setting.branchSize op)
  modRm setting.mode .dword false [0xFF] (.digit digit) target

def branch (short : Option UInt8) (near : List UInt8) (digit : Fin 8) :
    List Operand → Writing room Unit
  | [.rel disp bits] => relative setting short near disp bits
  | [.reg reg] => indirect setting digit (.reg reg)
  | [.mem mem] => indirect setting digit (.mem mem)
  | [_] => refuse .noMatchingForm
  | _ => refuse .badOperandCount

def jumpIf (condition : Fin 16) : List Operand → Writing room Unit
  | [.rel disp bits] => do
    let short ← opcodeByte (0x70 + condition)
    let near ← opcodeByte (0x80 + condition)
    relative setting (some short) [0x0F, near] disp bits
  | [_] => refuse .noMatchingForm
  | _ => refuse .badOperandCount

def operation (operation : Operation) (ops : List Operand) : Writing room Unit :=
  match operation with
  | .alu op => alu setting op ops
  | .mov => mov setting ops
  | .lea => lea setting ops
  | .test => test setting ops
  | .step op => step setting op ops
  | .unary op => unary setting op ops
  | .shift op => shift setting op ops
  | .push => stackPush setting ops
  | .pop => stackPop setting ops
  | .imul => imul setting ops
  | .jmp => branch setting (some 0xEB) [0xE9] 4 ops
  | .call => branch setting none [0xE8] 2 ops
  | .jumpIf condition => jumpIf setting condition ops
  | .int => interrupt ops
  | .system op => system op ops

end Families

/-- All the bytes of an instruction, in the scratch area. -/
def scratch (inst : Instruction) : Writing room Unit :=
  if operandLimit < inst.operandCount then
    throw (.fault .unrepresentable)
  else
    match mnemonic? inst.cls with
    | none => refuse .badClass
    | some (_, op) => do
      let ops ← check (inst.operands.mapM readOperand)
      let setting ← check (Setting.ofBits inst.mode inst.operandBits)
      operation setting op ops

/-- A whole instruction: its bytes are written to the scratch area and then delivered. -/
def instruction (inst : Instruction) : Writing room Nat := do
  scratch inst
  deliver

/-- Writes an instruction from an empty scratch area: the answer, and the output that is left. -/
def emit (inst : Instruction) (output : Vector UInt8 room) :
    Except Stop Nat × Vector UInt8 room :=
  match instruction inst ⟨[], output⟩ with
  | .ok count space => (.ok count, space.output)
  | .error stop space => (.error stop, space.output)

end Writing

end MachineCode.X86
