import MachineCode.Instruction.Engine
import MachineCode.X86.Form

/-!
The x86 engine: it reads register and class ids, lays out the instruction and writes its bytes.
-/

namespace MachineCode.X86

/-- The text with ASCII letters in capitals. -/
def capitals (name : String) : String := name.map Char.toUpper

/-- The id of the first entry of a table that satisfies the test, and 0 for none. -/
def tableId {α : Type} (table : List α) (test : α → Bool) : UInt16 :=
  match table.findIdx? test with
  | some index => UInt16.ofNat (index + 1)
  | none => 0

/-- The registers; a name may be written in either case. -/
def registerTable : NameTable RegisterId where
  find name := ⟨tableId Register.all fun reg => reg.name = capitals name⟩
  name? id := (Register.ofId? id).map Register.name

/-- The mnemonics; a mnemonic may be written in either case. -/
def mnemonicTable : NameTable ClassId where
  find name := ⟨tableId mnemonics fun entry => entry.1 = capitals name⟩
  name? id := (mnemonic? id).map Prod.fst

def readRegister (id : RegisterId) : Except RefusalCode Register :=
  match Register.ofId? id with
  | some reg => .ok reg
  | none => .error .badRegister

/-- The register of an address, where the invalid id stands for none. -/
def readAddressRegister (id : RegisterId) : Except RefusalCode (Option Register) :=
  if id.isValid then some <$> readRegister id else .ok none

def readOperand : ResolvedOperand → Except RefusalCode Operand
  | .reg id => return .reg (← readRegister id)
  | .unsigned value bits => .ok (.imm value bits)
  | .signed value bits => .ok (.imm value.toUInt64 bits)
  | .relative disp bits => .ok (.rel disp bits)
  | .mem mem => do
    let base ← readAddressRegister mem.base
    let index ← readAddressRegister mem.index
    return .mem { mem with base, index }

def layoutOf (inst : Instruction) : Except RefusalCode Layout :=
  match mnemonic? inst.cls with
  | none => .error .badClass
  | some (_, operation) => do
    let ops ← inst.operands.mapM readOperand
    let setting ← Setting.ofBits inst.mode inst.operandBits
    setting.layout operation ops

def encode (inst : Instruction) : Except EngineFault (List UInt8) :=
  if operandLimit < inst.operandCount then
    .error .unrepresentable
  else
    match layoutOf inst with
    | .ok layout => .ok layout.bytes
    | .error code => .error (.refused ⟨code⟩)

/-- Writes an instruction to the front of a buffer, if the buffer has room for all of it. -/
def emit (inst : Instruction) {size : Nat} (buffer : Vector UInt8 size) :
    Except EngineFault Nat × Vector UInt8 size :=
  match encode inst with
  | .error fault => (.error fault, buffer)
  | .ok bytes =>
    if bytes.length ≤ size then
      (.ok bytes.length, overwrite buffer bytes)
    else
      (.error (.refused ⟨.bufferTooShort⟩), buffer)

/-- The engine for the general-purpose integer instructions of x86. -/
def engine : Engine where
  label := "X86Engine"
  registers := registerTable
  classes := mnemonicTable
  emit

end MachineCode.X86
