import MachineCode.Instruction.Basic
import MachineCode.X86.Layout
import MachineCode.X86.Operation
import MachineCode.X86.Register

/-!
Reading machine code back: the instruction that a processor in a given mode sees at the front of a
byte string, for the part of the instruction set that the engine writes.
-/

namespace MachineCode.X86

/-- An address as the processor forms it. An index comes with its factor, and `bits` is the width
to which the address is cut. -/
structure EffectiveAddress where
  base : Option Register
  index : Option (Register × Nat)
  disp : Int
  bits : Nat
deriving DecidableEq, Repr

/-- An operand as the bytes show it. Immediate and relative operands are the fields that hold them,
as numbers without a sign. -/
inductive DecodedOperand where
  | reg (reg : Register)
  | mem (address : EffectiveAddress)
  | imm (bits : Nat) (field : Nat)
  | rel (bits : Nat) (field : Nat)
deriving DecidableEq, Repr

structure Decoded where
  operation : Operation
  size : OperandSize
  operands : List DecodedOperand
deriving DecidableEq, Repr

namespace Decoder

structure Context where
  mode : Mode
  operandPrefix : Bool := false
  addressPrefix : Bool := false
  rex : Option Rex := none
deriving DecidableEq, Repr

def rexOfByte (byte : Nat) : Rex :=
  ⟨byte / 8 % 2 = 1, byte / 4 % 2 = 1, byte / 2 % 2 = 1, byte % 2 = 1⟩

/-- Reads the prefixes. REX exists in 64-bit mode only and is the last prefix. -/
def readPrefixes (ctx : Context) : List UInt8 → Context × List UInt8
  | [] => (ctx, [])
  | byte :: rest =>
    if byte = 0x66 then
      readPrefixes { ctx with operandPrefix := true } rest
    else if byte = 0x67 then
      readPrefixes { ctx with addressPrefix := true } rest
    else if ctx.mode = .mode64 ∧ byte.toNat / 16 = 4 then
      ({ ctx with rex := some (rexOfByte byte.toNat) }, rest)
    else
      (ctx, byte :: rest)

namespace Context

def rexBit (ctx : Context) (bit : Rex → Bool) : Bool := ctx.rex.any bit

/-- The size of a full-size operand; REX.W goes before the prefix 66. -/
def size (ctx : Context) : OperandSize :=
  if ctx.rexBit Rex.w then .qword else if ctx.operandPrefix then .word else .dword

/-- The size that an opcode with a byte form and a full-size form works on. -/
def opcodeSize (ctx : Context) (opcode : Nat) : OperandSize :=
  if opcode % 2 = 0 then .byte else ctx.size

/-- The operand size of stack instructions and indirect branches. -/
def stackSize (ctx : Context) : OperandSize :=
  if ctx.operandPrefix then .word
  else
    match ctx.mode with
    | .mode64 => .qword
    | .mode32 => .dword

/-- The address size. Addresses of 16 bits have forms of their own, which are not read here. -/
def addressBits? (ctx : Context) : Option Nat :=
  match ctx.mode, ctx.addressPrefix with
  | .mode64, false => some 64
  | .mode64, true => some 32
  | .mode32, false => some 32
  | .mode32, true => none

/-- The register of a number. Without REX, the byte registers 4 to 7 are the high bytes. -/
def register (ctx : Context) (size : OperandSize) (number : Fin 16) : Register :=
  if size = .byte ∧ ctx.rex = none ∧ 4 ≤ number.val ∧ number.val < 8 then
    .highByte (Fin.ofNat 4 number.val)
  else
    .general size number

end Context

/-- A register number from the three bits of a field and a fourth bit of REX. -/
def extend (bit : Bool) (code : Nat) : Fin 16 := Fin.ofNat 16 (8 * bit.toNat + code % 8)

def addressRegister (bits : Nat) (number : Fin 16) : Register :=
  .general (if bits = 64 then .qword else .dword) number

def readField (count : Nat) (bytes : List UInt8) : Option (Nat × List UInt8) :=
  if count ≤ bytes.length then
    some (ofLittleEndian (bytes.take count), bytes.drop count)
  else
    none

/-- The value of a field of `bits` bits in two's complement. -/
def signed (bits field : Nat) : Int := Int.bmod field (fieldRange bits)

def readDisp (count : Nat) (bytes : List UInt8) : Option (Int × List UInt8) :=
  (readField count bytes).map fun (field, rest) => (signed (8 * count) field, rest)

/-- What ModR/M names in `r/m`: a register number or an address. -/
inductive Target where
  | reg (number : Fin 16)
  | mem (address : EffectiveAddress)
deriving DecidableEq, Repr

def Target.operand (ctx : Context) (size : OperandSize) : Target → DecodedOperand
  | .reg number => .reg (ctx.register size number)
  | .mem address => .mem address

/-- The size in bytes of the displacement that `mod` announces. -/
def dispCount (mod : Nat) : Nat := if mod = 1 then 1 else if mod = 2 then 4 else 0

/-- Reads an address behind its ModR/M byte. Index 4 means no index, and base 5 under `mod` 0 means
no base but a displacement of 32 bits. Without SIB the latter is relative to the instruction
pointer in 64-bit mode. -/
def readAddress (ctx : Context) (mod rm : Nat) (bytes : List UInt8) :
    Option (EffectiveAddress × List UInt8) := do
  let bits ← ctx.addressBits?
  if rm = 4 then
    let (sib, bytes) ← readField 1 bytes
    let indexNumber := extend (ctx.rexBit Rex.x) (sib / 8)
    let index :=
      if indexNumber = 4 then none
      else some (addressRegister bits indexNumber, 1 <<< (sib / 64))
    if mod = 0 ∧ sib % 8 = 5 then
      let (disp, bytes) ← readDisp 4 bytes
      return ({ base := none, index, disp, bits }, bytes)
    else
      let base := addressRegister bits (extend (ctx.rexBit Rex.b) sib)
      let (disp, bytes) ← readDisp (dispCount mod) bytes
      return ({ base := some base, index, disp, bits }, bytes)
  else if mod = 0 ∧ rm = 5 then
    let base : Option Register :=
      match ctx.mode with
      | .mode64 => some (if bits = 64 then .rip else .eip)
      | .mode32 => none
    let (disp, bytes) ← readDisp 4 bytes
    return ({ base, index := none, disp, bits }, bytes)
  else
    let base := addressRegister bits (extend (ctx.rexBit Rex.b) rm)
    let (disp, bytes) ← readDisp (dispCount mod) bytes
    return ({ base := some base, index := none, disp, bits }, bytes)

/-- A ModR/M byte with what follows it: the `reg` field as a digit and as a register number, and
the target. -/
structure ModRmReading where
  digit : Nat
  number : Fin 16
  target : Target
deriving DecidableEq, Repr

def readModRm (ctx : Context) (bytes : List UInt8) : Option (ModRmReading × List UInt8) := do
  let (byte, bytes) ← readField 1 bytes
  let digit := byte / 8 % 8
  let number := extend (ctx.rexBit Rex.r) digit
  if byte / 64 = 3 then
    return (⟨digit, number, .reg (extend (ctx.rexBit Rex.b) byte)⟩, bytes)
  else
    let (address, bytes) ← readAddress ctx (byte / 64) (byte % 8) bytes
    return (⟨digit, number, .mem address⟩, bytes)

abbrev Result := Option (Decoded × List UInt8)

def readImmediate (bits : Nat) (bytes : List UInt8) : Option (DecodedOperand × List UInt8) :=
  (readField (bits / 8) bytes).map fun (field, rest) => (.imm bits field, rest)

/-- An instruction with a register in `reg`; `regFirst` tells whether that is the first operand. -/
def readPair (ctx : Context) (operation : Operation) (size : OperandSize) (regFirst : Bool)
    (bytes : List UInt8) : Result := do
  let (modRm, bytes) ← readModRm ctx bytes
  let reg : DecodedOperand := .reg (ctx.register size modRm.number)
  let target := modRm.target.operand ctx size
  return ({ operation, size, operands := if regFirst then [reg, target] else [target, reg] }, bytes)

def readTriple (ctx : Context) (operation : Operation) (bits : Nat) (bytes : List UInt8) :
    Result := do
  let (modRm, bytes) ← readModRm ctx bytes
  let (imm, bytes) ← readImmediate bits bytes
  let reg : DecodedOperand := .reg (ctx.register ctx.size modRm.number)
  let target := modRm.target.operand ctx ctx.size
  return ({ operation, size := ctx.size, operands := [reg, target, imm] }, bytes)

/-- What one value of the `reg` field selects in an opcode group. -/
structure GroupEntry where
  operation : Operation
  size : OperandSize
  immediateBits : Option Nat := none
deriving DecidableEq, Repr

/-- An instruction whose `reg` field selects the operation. `more` are operands that the opcode
implies. -/
def readGroup (ctx : Context) (entryOf : Nat → Option GroupEntry) (more : List DecodedOperand)
    (bytes : List UInt8) : Result := do
  let (modRm, bytes) ← readModRm ctx bytes
  let entry ← entryOf modRm.digit
  let target := modRm.target.operand ctx entry.size
  match entry.immediateBits with
  | none => return (⟨entry.operation, entry.size, target :: more⟩, bytes)
  | some bits =>
    let (imm, bytes) ← readImmediate bits bytes
    return (⟨entry.operation, entry.size, [target, imm]⟩, bytes)

def readRegisterImmediate (operation : Operation) (size : OperandSize) (reg : Register)
    (bits : Nat) (bytes : List UInt8) : Result := do
  let (imm, bytes) ← readImmediate bits bytes
  return ({ operation, size, operands := [.reg reg, imm] }, bytes)

def readRelative (operation : Operation) (size : OperandSize) (bits : Nat) (bytes : List UInt8) :
    Result := do
  let (field, bytes) ← readField (bits / 8) bytes
  return ({ operation, size, operands := [.rel bits field] }, bytes)

def aluOf (digit : Nat) : Option AluOp :=
  [.add, .or, .adc, .sbb, .and, .sub, .xor, .cmp][digit]?

def shiftOf (digit : Nat) : Option ShiftOp :=
  [ShiftOp.rol, .ror, .shl, .shr, .sar].find? fun op => op.digit.val = digit

/-- The full-size relative displacement; the prefix 66 narrows it in 32-bit mode only. -/
def Context.relativeBits (ctx : Context) : Nat :=
  if ctx.mode = .mode32 ∧ ctx.operandPrefix then 16 else 32

def aluEntry (size : OperandSize) (bits digit : Nat) : Option GroupEntry :=
  (aluOf digit).map fun op => ⟨.alu op, size, some bits⟩

def shiftEntry (size : OperandSize) (bits : Option Nat) (digit : Nat) : Option GroupEntry :=
  (shiftOf digit).map fun op => ⟨.shift op, size, bits⟩

/-- The group of the opcodes F6 and F7, of which only TEST has an immediate. -/
def unaryEntry (size : OperandSize) : Nat → Option GroupEntry
  | 0 => some ⟨.test, size, some size.immediateBits⟩
  | 2 => some ⟨.unary .not, size, none⟩
  | 3 => some ⟨.unary .neg, size, none⟩
  | _ => none

/-- The group of the opcodes FE and FF; all but the first two only exist in full size. -/
def stepEntry (ctx : Context) (size : OperandSize) : Nat → Option GroupEntry
  | 0 => some ⟨.step .inc, size, none⟩
  | 1 => some ⟨.step .dec, size, none⟩
  | digit =>
    if size = .byte then none
    else
      match digit with
      | 2 => some ⟨.call, ctx.stackSize, none⟩
      | 4 => some ⟨.jmp, ctx.stackSize, none⟩
      | 6 => some ⟨.push, ctx.stackSize, none⟩
      | _ => none

/-- A group of which only the digit 0 is used. -/
def onlyEntry (entry : GroupEntry) (digit : Nat) : Option GroupEntry :=
  if digit = 0 then some entry else none

/-- The arithmetic opcodes below 40, in eight groups of eight. -/
def readAlu (ctx : Context) (opcode : Nat) (bytes : List UInt8) : Result := do
  let op ← aluOf (opcode / 8)
  let size := ctx.opcodeSize opcode
  match opcode % 8 with
  | 0 | 1 => readPair ctx (.alu op) size false bytes
  | 2 | 3 => readPair ctx (.alu op) size true bytes
  | 4 | 5 => readRegisterImmediate (.alu op) size (.general size 0) size.immediateBits bytes
  | _ => none

def Context.opcodeRegister (ctx : Context) (size : OperandSize) (opcode : Nat) : Register :=
  ctx.register size (extend (ctx.rexBit Rex.b) opcode)

/-- The opcodes behind the escape byte 0F. -/
def readTwoByte (ctx : Context) (bytes : List UInt8) : Result := do
  let (opcode, bytes) ← readField 1 bytes
  if opcode / 16 = 8 then
    readRelative (.jumpIf (Fin.ofNat 16 opcode)) ctx.stackSize ctx.relativeBits bytes
  else
    match opcode with
    | 0x05 => some (⟨.system .syscall, ctx.size, []⟩, bytes)
    | 0xA2 => some (⟨.system .cpuid, ctx.size, []⟩, bytes)
    | 0xAF => readPair ctx .imul ctx.size true bytes
    | _ => none

/-- The opcodes that hold a register or a condition in their low bits. -/
def readRow (ctx : Context) (opcode : Nat) (bytes : List UInt8) : Result :=
  match opcode / 8 with
  | 0x08 => some (⟨.step .inc, ctx.size, [.reg (ctx.opcodeRegister ctx.size opcode)]⟩, bytes)
  | 0x09 => some (⟨.step .dec, ctx.size, [.reg (ctx.opcodeRegister ctx.size opcode)]⟩, bytes)
  | 0x0A => some (⟨.push, ctx.stackSize, [.reg (ctx.opcodeRegister ctx.stackSize opcode)]⟩, bytes)
  | 0x0B => some (⟨.pop, ctx.stackSize, [.reg (ctx.opcodeRegister ctx.stackSize opcode)]⟩, bytes)
  | 0x0E | 0x0F => readRelative (.jumpIf (Fin.ofNat 16 opcode)) ctx.stackSize 8 bytes
  | 0x16 => readRegisterImmediate .mov .byte (ctx.opcodeRegister .byte opcode) 8 bytes
  | 0x17 =>
    readRegisterImmediate .mov ctx.size (ctx.opcodeRegister ctx.size opcode) ctx.size.bits bytes
  | _ => none

def readOpcode (ctx : Context) (opcode : Nat) (bytes : List UInt8) : Result := do
  let size := ctx.opcodeSize opcode
  match opcode with
  | 0x0F => readTwoByte ctx bytes
  | 0x68 =>
    let (imm, bytes) ← readImmediate ctx.stackSize.immediateBits bytes
    return (⟨.push, ctx.stackSize, [imm]⟩, bytes)
  | 0x69 => readTriple ctx .imul ctx.size.immediateBits bytes
  | 0x6A =>
    let (imm, bytes) ← readImmediate 8 bytes
    return (⟨.push, ctx.stackSize, [imm]⟩, bytes)
  | 0x6B => readTriple ctx .imul 8 bytes
  | 0x80 | 0x81 => readGroup ctx (aluEntry size size.immediateBits) [] bytes
  | 0x83 => readGroup ctx (aluEntry size 8) [] bytes
  | 0x84 | 0x85 => readPair ctx .test size false bytes
  | 0x88 | 0x89 => readPair ctx .mov size false bytes
  | 0x8A | 0x8B => readPair ctx .mov size true bytes
  | 0x8D =>
    let (modRm, bytes) ← readModRm ctx bytes
    match modRm.target with
    | .mem address =>
      return (⟨.lea, ctx.size, [.reg (ctx.register ctx.size modRm.number), .mem address]⟩, bytes)
    | .reg _ => none
  | 0x8F => readGroup ctx (onlyEntry ⟨.pop, ctx.stackSize, none⟩) [] bytes
  | 0x90 => if ctx.rexBit Rex.b then none else some (⟨.system .nop, ctx.size, []⟩, bytes)
  | 0xA8 | 0xA9 => readRegisterImmediate .test size (.general size 0) size.immediateBits bytes
  | 0xC0 | 0xC1 => readGroup ctx (shiftEntry size (some 8)) [] bytes
  | 0xC3 => some (⟨.system .ret, ctx.stackSize, []⟩, bytes)
  | 0xC6 | 0xC7 => readGroup ctx (onlyEntry ⟨.mov, size, some size.immediateBits⟩) [] bytes
  | 0xC9 => some (⟨.system .leave, ctx.stackSize, []⟩, bytes)
  | 0xCC => some (⟨.system .int3, ctx.size, []⟩, bytes)
  | 0xCD =>
    let (imm, bytes) ← readImmediate 8 bytes
    return (⟨.int, ctx.size, [imm]⟩, bytes)
  | 0xD2 | 0xD3 => readGroup ctx (shiftEntry size none) [.reg (.general .byte 1)] bytes
  | 0xE8 => readRelative .call ctx.stackSize ctx.relativeBits bytes
  | 0xE9 => readRelative .jmp ctx.stackSize ctx.relativeBits bytes
  | 0xEB => readRelative .jmp ctx.stackSize 8 bytes
  | 0xF4 => some (⟨.system .hlt, ctx.size, []⟩, bytes)
  | 0xF6 | 0xF7 => readGroup ctx (unaryEntry size) [] bytes
  | 0xFE | 0xFF => readGroup ctx (stepEntry ctx size) [] bytes
  | _ => if opcode < 0x40 then readAlu ctx opcode bytes else readRow ctx opcode bytes

end Decoder

open Decoder in
/-- The instruction at the front of a byte string, with the bytes behind it. -/
def decode (mode : Mode) (bytes : List UInt8) : Option (Decoded × List UInt8) := do
  let (ctx, bytes) := readPrefixes { mode } bytes
  let (opcode, bytes) ← readField 1 bytes
  readOpcode ctx opcode bytes

end MachineCode.X86
