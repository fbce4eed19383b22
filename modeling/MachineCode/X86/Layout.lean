import MachineCode.Bytes

/-!
The parts of an x86 instruction and the bytes they become: legacy prefixes, REX, opcode, ModR/M,
SIB, displacement and immediate, in this order.
-/

namespace MachineCode.X86

/-- The four bits of a REX prefix: operand width, and the fourth bits of the `reg`, index and
`r/m` or base fields. -/
structure Rex where
  w : Bool
  r : Bool
  x : Bool
  b : Bool
deriving DecidableEq, Repr

namespace Rex

def byte (rex : Rex) : UInt8 :=
  UInt8.ofNat (0x40 + 8 * rex.w.toNat + 4 * rex.r.toNat + 2 * rex.x.toNat + rex.b.toNat)

def isClear (rex : Rex) : Bool := !(rex.w || rex.r || rex.x || rex.b)

end Rex

structure Sib where
  scale : Fin 4
  index : Fin 8
  base : Fin 8
deriving DecidableEq, Repr

def Sib.byte (sib : Sib) : UInt8 :=
  UInt8.ofNat (64 * sib.scale.val + 8 * sib.index.val + sib.base.val)

/-- The ModR/M byte with the SIB byte and the displacement behind it. -/
structure ModRm where
  mod : Fin 4
  reg : Fin 8
  rm : Fin 8
  sib : Option Sib := none
  disp : List UInt8 := []
deriving DecidableEq, Repr

namespace ModRm

def byte (modRm : ModRm) : UInt8 :=
  UInt8.ofNat (64 * modRm.mod.val + 8 * modRm.reg.val + modRm.rm.val)

def bytes (modRm : ModRm) : List UInt8 :=
  modRm.byte :: (modRm.sib.map Sib.byte).toList ++ modRm.disp

end ModRm

structure Layout where
  /-- The prefix 66, which selects 16-bit operands. -/
  operandPrefix : Bool := false
  /-- The prefix 67, which selects the other address size. -/
  addressPrefix : Bool := false
  rex : Option Rex := none
  opcode : List UInt8
  modRm : Option ModRm := none
  immediate : List UInt8 := []
deriving DecidableEq, Repr

def Layout.bytes (layout : Layout) : List UInt8 :=
  (if layout.operandPrefix then [0x66] else [])
    ++ (if layout.addressPrefix then [0x67] else [])
    ++ (layout.rex.map Rex.byte).toList
    ++ layout.opcode
    ++ (layout.modRm.map ModRm.bytes).getD []
    ++ layout.immediate

end MachineCode.X86
