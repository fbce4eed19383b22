import MachineCode.Instruction.Basic

/-!
The x86 register file: what each register is, its canonical name and its number in the name table.
-/

namespace MachineCode.X86

-- Numerals of the bit fields of an instruction carry these proofs. They are instances of the core
-- library under fixed names: an unnamed proof becomes a lemma of its own in every module, so that one
-- text would stand for different terms.
instance neZero_four : @NeZero Nat Zero.ofOfNat0 4 := Nat.instNeZeroSucc

instance neZero_eight : @NeZero Nat Zero.ofOfNat0 8 := Nat.instNeZeroSucc

instance neZero_sixteen : @NeZero Nat Zero.ofOfNat0 16 := Nat.instNeZeroSucc

/-- The width on which an instruction operates. -/
inductive OperandSize where
  | byte
  | word
  | dword
  | qword
deriving DecidableEq, Repr

namespace OperandSize

def bits : OperandSize → Nat
  | .byte => 8
  | .word => 16
  | .dword => 32
  | .qword => 64

/-- The low bit of an opcode that comes in a byte form and a full-size form. -/
def wideBit : OperandSize → Nat
  | .byte => 0
  | _ => 1

/-- The width of a full-size immediate, which is at most 32 bits and then sign-extended. -/
def immediateBits : OperandSize → Nat
  | .byte => 8
  | .word => 16
  | .dword | .qword => 32

end OperandSize

inductive Register where
  /-- A general-purpose register, or the low part of one. -/
  | general (size : OperandSize) (number : Fin 16)
  /-- One of AH, CH, DH and BH. -/
  | highByte (number : Fin 4)
  | rip
  | eip
  | xmm (number : Fin 16)
  | ymm (number : Fin 16)
deriving DecidableEq, Repr

namespace Register

def bits : Register → Nat
  | .general size _ => size.bits
  | .highByte _ => 8
  | .rip => 64
  | .eip => 32
  | .xmm _ => 128
  | .ymm _ => 256

/-- The hardware number, of which an instruction holds the low three bits as `code`. The high bytes
share the numbers 4 to 7 with SPL, BPL, SIL and DIL. -/
def number : Register → Nat
  | .general _ number => number
  | .highByte number => number + 4
  | .rip | .eip => 5
  | .xmm number | .ymm number => number

def code (reg : Register) : Fin 8 := Fin.ofNat 8 reg.number

/-- The fourth bit of the number is set, which only a REX prefix can hold. -/
def isExtended (reg : Register) : Bool := 8 ≤ reg.number

def isGeneral : Register → Bool
  | .general _ _ => true
  | _ => false

def isHighByte : Register → Bool
  | .highByte _ => true
  | _ => false

def isPointer : Register → Bool
  | .rip | .eip => true
  | _ => false

/-- SPL, BPL, SIL and DIL, which without a REX prefix would read as the high bytes. -/
def needsRex : Register → Bool
  | .general .byte number => 4 ≤ number.val && number.val < 8
  | _ => false

def generalNames : OperandSize → Vector String 16
  | .qword => #v["RAX", "RCX", "RDX", "RBX", "RSP", "RBP", "RSI", "RDI",
      "R8", "R9", "R10", "R11", "R12", "R13", "R14", "R15"]
  | .dword => #v["EAX", "ECX", "EDX", "EBX", "ESP", "EBP", "ESI", "EDI",
      "R8D", "R9D", "R10D", "R11D", "R12D", "R13D", "R14D", "R15D"]
  | .word => #v["AX", "CX", "DX", "BX", "SP", "BP", "SI", "DI",
      "R8W", "R9W", "R10W", "R11W", "R12W", "R13W", "R14W", "R15W"]
  | .byte => #v["AL", "CL", "DL", "BL", "SPL", "BPL", "SIL", "DIL",
      "R8B", "R9B", "R10B", "R11B", "R12B", "R13B", "R14B", "R15B"]

def highByteNames : Vector String 4 := #v["AH", "CH", "DH", "BH"]

def xmmNames : Vector String 16 :=
  #v["XMM0", "XMM1", "XMM2", "XMM3", "XMM4", "XMM5", "XMM6", "XMM7",
    "XMM8", "XMM9", "XMM10", "XMM11", "XMM12", "XMM13", "XMM14", "XMM15"]

def ymmNames : Vector String 16 :=
  #v["YMM0", "YMM1", "YMM2", "YMM3", "YMM4", "YMM5", "YMM6", "YMM7",
    "YMM8", "YMM9", "YMM10", "YMM11", "YMM12", "YMM13", "YMM14", "YMM15"]

/-- The canonical name, in capitals. -/
def name : Register → String
  | .general size number => (generalNames size)[number]
  | .highByte number => highByteNames[number]
  | .rip => "RIP"
  | .eip => "EIP"
  | .xmm number => xmmNames[number]
  | .ymm number => ymmNames[number]

/-- Every register, in the order of the ids. -/
def all : List Register :=
  [OperandSize.qword, .dword, .word, .byte].flatMap
      (fun size => (List.finRange 16).map (.general size))
    ++ (List.finRange 4).map .highByte ++ [.rip, .eip]
    ++ (List.finRange 16).map .xmm ++ (List.finRange 16).map .ymm

/-- The register of an id: ids count from 1. -/
def ofId? (id : RegisterId) : Option Register :=
  if id.number = 0 then none else all[id.number.toNat - 1]?

end Register

end MachineCode.X86
