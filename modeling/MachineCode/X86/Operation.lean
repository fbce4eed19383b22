import MachineCode.X86.Register

/-!
The instructions of the x86 engine and the mnemonics that name them. Several mnemonics may name one
operation, as JE and JZ do.
-/

namespace MachineCode.X86

/-- The two-operand arithmetic group. -/
inductive AluOp where
  | add | or | adc | sbb | and | sub | xor | cmp
deriving DecidableEq, Repr

def AluOp.digit : AluOp → Fin 8
  | .add => 0
  | .or => 1
  | .adc => 2
  | .sbb => 3
  | .and => 4
  | .sub => 5
  | .xor => 6
  | .cmp => 7

inductive StepOp where
  | inc | dec
deriving DecidableEq, Repr

def StepOp.digit : StepOp → Fin 8
  | .inc => 0
  | .dec => 1

inductive UnaryOp where
  | not | neg
deriving DecidableEq, Repr

def UnaryOp.digit : UnaryOp → Fin 8
  | .not => 2
  | .neg => 3

inductive ShiftOp where
  | rol | ror | shl | shr | sar
deriving DecidableEq, Repr

def ShiftOp.digit : ShiftOp → Fin 8
  | .rol => 0
  | .ror => 1
  | .shl => 4
  | .shr => 5
  | .sar => 7

inductive SystemOp where
  | nop | ret | int3 | hlt | leave | syscall | cpuid
deriving DecidableEq, Repr

def SystemOp.opcode : SystemOp → List UInt8
  | .nop => [0x90]
  | .ret => [0xC3]
  | .int3 => [0xCC]
  | .hlt => [0xF4]
  | .leave => [0xC9]
  | .syscall => [0x0F, 0x05]
  | .cpuid => [0x0F, 0xA2]

inductive Operation where
  | alu (op : AluOp)
  | mov
  | lea
  | test
  | step (op : StepOp)
  | unary (op : UnaryOp)
  | shift (op : ShiftOp)
  | push
  | pop
  | imul
  | jmp
  | call
  /-- A jump on one of the sixteen conditions. -/
  | jumpIf (condition : Fin 16)
  | int
  | system (op : SystemOp)
deriving DecidableEq, Repr

/-- The mnemonics, in the order of the class ids. -/
def mnemonics : List (String × Operation) :=
  [("ADD", .alu .add), ("OR", .alu .or), ("ADC", .alu .adc), ("SBB", .alu .sbb),
    ("AND", .alu .and), ("SUB", .alu .sub), ("XOR", .alu .xor), ("CMP", .alu .cmp),
    ("MOV", .mov), ("LEA", .lea), ("TEST", .test),
    ("INC", .step .inc), ("DEC", .step .dec), ("NOT", .unary .not), ("NEG", .unary .neg),
    ("ROL", .shift .rol), ("ROR", .shift .ror), ("SHL", .shift .shl), ("SHR", .shift .shr),
    ("SAR", .shift .sar),
    ("PUSH", .push), ("POP", .pop), ("IMUL", .imul), ("JMP", .jmp),
    ("CALL_NEAR", .call), ("CALL", .call),
    ("JO", .jumpIf 0), ("JNO", .jumpIf 1), ("JB", .jumpIf 2), ("JNB", .jumpIf 3),
    ("JZ", .jumpIf 4), ("JNZ", .jumpIf 5), ("JBE", .jumpIf 6), ("JNBE", .jumpIf 7),
    ("JS", .jumpIf 8), ("JNS", .jumpIf 9), ("JP", .jumpIf 10), ("JNP", .jumpIf 11),
    ("JL", .jumpIf 12), ("JNL", .jumpIf 13), ("JLE", .jumpIf 14), ("JNLE", .jumpIf 15),
    ("JE", .jumpIf 4), ("JNE", .jumpIf 5), ("JAE", .jumpIf 3), ("JA", .jumpIf 7),
    ("JGE", .jumpIf 13), ("JG", .jumpIf 15),
    ("INT", .int), ("NOP", .system .nop), ("RET_NEAR", .system .ret), ("RET", .system .ret),
    ("INT3", .system .int3), ("HLT", .system .hlt), ("LEAVE", .system .leave),
    ("SYSCALL", .system .syscall), ("CPUID", .system .cpuid)]

/-- The mnemonic and operation of a class id: ids count from 1. -/
def mnemonic? (id : ClassId) : Option (String × Operation) :=
  if id.number = 0 then none else mnemonics[id.number.toNat - 1]?

end MachineCode.X86
