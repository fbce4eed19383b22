import MachineCode.Instruction.Engine
import MachineCode.X86.Layout
import MachineCode.X86.Register

/-!
Memory operands: which addresses the machine can form in a mode, and how ModR/M, SIB and
displacement write them.
-/

namespace MachineCode.X86

/-- The memory operand `[base + index * scale + disp]`. -/
structure Memory where
  base : Option Register
  index : Option Register
  scale : UInt8
  disp : Int64
  dispBits : UInt8
  width : UInt16
deriving DecidableEq, Repr

namespace Memory

def registers (mem : Memory) : List Register := mem.base.toList ++ mem.index.toList

/-- The width of the address registers, `none` for an absolute address. Base and index are
general-purpose registers of one width, and number 4 cannot be an index. The instruction pointer
can be a base that has no index. -/
def addressBits (mem : Memory) : Except RefusalCode (Option Nat) :=
  match mem.base, mem.index with
  | none, none => .ok none
  | some base, none =>
    if base.isGeneral || base.isPointer then .ok (some base.bits) else .error .badRegister
  | base, some index =>
    if index.isGeneral && index.number ≠ 4
        && base.all (fun base => base.isGeneral && base.bits = index.bits) then
      .ok (some index.bits)
    else
      .error .badRegister

def addressPrefix (mem : Memory) (mode : Mode) : Except RefusalCode Bool := do
  match mode, ← mem.addressBits with
  | _, none => .ok false
  | .mode64, some 64 => .ok false
  | .mode64, some 32 => .ok true
  | .mode32, some 64 => .error .invalidMode
  | .mode32, some 32 =>
    if mem.registers.any fun reg => reg.isExtended || reg.isPointer then
      .error .invalidMode
    else
      .ok false
  | _, _ => .error .badRegister

/-- The scale field of SIB; 0 reads as 1. -/
def scaleField? (mem : Memory) : Option (Fin 4) :=
  match mem.scale.toNat with
  | 0 | 1 => some 0
  | 2 => some 1
  | 4 => some 2
  | 8 => some 3
  | _ => none

def dispBytes (mem : Memory) (count : Nat) : List UInt8 :=
  littleEndian count mem.disp.toUInt64.toNat

/-- The `mod` field and the displacement behind a base register. A base whose code is 5 has no
form without displacement, so there a missing displacement becomes a zero byte. -/
def dispField (mem : Memory) (base : Register) : Except RefusalCode (Fin 4 × List UInt8) :=
  match mem.dispBits.toNat with
  | 0 =>
    if mem.disp ≠ 0 then
      .error .badDisplacement
    else if base.code = 5 then
      .ok (1, mem.dispBytes 1)
    else
      .ok (0, [])
  | 8 =>
    if -128 ≤ mem.disp.toInt ∧ mem.disp.toInt ≤ 127 then
      .ok (1, mem.dispBytes 1)
    else
      .error .badDisplacement
  | 32 => .ok (2, mem.dispBytes 4)
  | _ => .error .badDisplacement

/-- The displacement of a memory operand fits the 32 bits that an instruction has for it. -/
def dispFits (mem : Memory) : Bool :=
  -0x80000000 ≤ mem.disp.toInt && mem.disp.toInt < 0x80000000

/-- The fields of an address without a base, whose displacement always has 32 bits. In 64-bit mode
an absolute address takes a SIB byte, since `r/m` 5 is relative to the instruction pointer there. -/
def modRmWithoutBase (mem : Memory) (mode : Mode) (reg : Fin 8) (scale : Fin 4) : ModRm :=
  match mem.index, mode with
  | some index, _ =>
    { mod := 0, reg, rm := 4, sib := some ⟨scale, index.code, 5⟩, disp := mem.dispBytes 4 }
  | none, .mode64 =>
    { mod := 0, reg, rm := 4, sib := some ⟨0, 4, 5⟩, disp := mem.dispBytes 4 }
  | none, .mode32 => { mod := 0, reg, rm := 5, disp := mem.dispBytes 4 }

/-- The fields of an address with a general-purpose base. An index, or a base whose code is 4,
takes a SIB byte, where index 4 stands for no index. -/
def modRmWithBase (mem : Memory) (base : Register) (reg : Fin 8) (scale : Fin 4) (mod : Fin 4)
    (disp : List UInt8) : ModRm :=
  match mem.index with
  | some index => { mod, reg, rm := 4, sib := some ⟨scale, index.code, base.code⟩, disp }
  | none =>
    if base.code = 4 then
      { mod, reg, rm := 4, sib := some ⟨scale, 4, base.code⟩, disp }
    else
      { mod, reg, rm := base.code, disp }

def modRm (mem : Memory) (mode : Mode) (reg : Fin 8) : Except RefusalCode ModRm :=
  match mem.scaleField? with
  | none => .error .badScale
  | some scale =>
    if !mem.dispFits then
      .error .badDisplacement
    else
      match mem.base with
      | none => .ok (mem.modRmWithoutBase mode reg scale)
      | some base =>
        if base.isPointer then
          if mode = .mode32 then
            .error .invalidMode
          else
            .ok { mod := 0, reg, rm := 5, disp := mem.dispBytes 4 }
        else do
          let (mod, disp) ← mem.dispField base
          return mem.modRmWithBase base reg scale mod disp

end Memory

end MachineCode.X86
