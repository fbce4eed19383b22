import MachineCode.Bytes
import MachineCode.Address.Parser
import MachineCode.Session.Lexicon

/-!
Encoders. An encoder turns requests into calls of its engine, and keeps the bytes or the error of
the last encode call.
-/

namespace MachineCode

/-- The size of the output buffer, which also bounds the length of a mnemonic. -/
def bufferSize : Nat := 48

abbrev AddressReader := String → Except AddressError AddressExpr

structure Encoder (engine : Engine) where
  mode : Mode := .mode64
  dispPolicy : DispPolicy := .auto
  reader : AddressReader := AddressExpr.parse
  lexicon : Lexicon := {}
  buffer : Vector UInt8 bufferSize := Vector.replicate bufferSize 0
  outputSize : Nat := 0
  lastError : Option EncodeFailure := none

structure Outcome (engine : Engine) where
  result : Except EncodeFailure (List UInt8)
  encoder : Encoder engine
  events : List Event

/-- The reason to reject a request before the engine is asked: a mnemonic that is too long, then a
kept misuse, then more operands than an instruction carries, then a scale that no address has. -/
def Request.rejection? (req : Request) : Option EncodeFailure :=
  if bufferSize < req.mnemonic.utf8ByteSize then
    some (.mnemonicTooLong (UInt64.ofNat req.mnemonic.utf8ByteSize) (UInt64.ofNat bufferSize))
  else
    match req.misuse with
    | some misuse => some (.misused misuse)
    | none =>
      if operandLimit < req.operands.size then
        some (.operandCount (UInt64.ofNat req.operands.size))
      else if req.operands.hasMemory && !req.address.hasValidScale then
        some (.misused (.invalidScale req.address.scale))
      else
        none

namespace Encoder

variable {engine : Engine}

/-- A new encoder with the same settings and names, and no output. -/
def clone (enc : Encoder engine) : Encoder engine :=
  { mode := enc.mode, dispPolicy := enc.dispPolicy, reader := enc.reader, lexicon := enc.lexicon }

/-- The bytes of the last encode call; none after a failure. -/
def output (enc : Encoder engine) : List UInt8 := enc.buffer.toList.take enc.outputSize

/-- Looks up the registers of the address, base first. -/
def resolveAddress (enc : Encoder engine) (lex : Lexicon) (req : Request) :
    Resolution ResolvedMemory :=
  let base := lex.reference engine req.address.base
  let index := base.lexicon.reference engine req.address.index
  let disp := req.address.disp
  { value :=
      { base := base.value
        index := index.value
        scale := req.address.scale
        disp := disp.toInt64
        dispBits := (req.dispPolicy.orElse enc.dispPolicy).widthFor disp
        width := 0 }
    lexicon := index.lexicon
    events := base.events ++ index.events }

/-- The operand for the engine, given the address of the request. -/
def resolveOperand (memory : ResolvedMemory) : Operand → Option ResolvedOperand
  | .empty => none
  | .reg id => some (.reg id)
  | .mem width => some (.mem { memory with width })
  | .imm value =>
    match value with
    | .uint8 value => some (.unsigned value.toUInt64 8)
    | .uint32 value => some (.unsigned value.toUInt64 32)
    | .uint64 value => some (.unsigned value 64)
    | .int8 value => some (.signed value.toInt64 8)
    | .int16 value => some (.signed value.toInt64 16)
    | .int32 value => some (.signed value.toInt64 32)
    | .rel8 disp => some (.relative disp.toInt32 8)
    | .rel16 disp => some (.relative disp.toInt32 16)
    | .rel32 disp => some (.relative disp 32)

/-- The instruction that a request asks for. The registers of the address are looked up only if
there is a memory operand. -/
def resolve (enc : Encoder engine) (req : Request) : Resolution (Option Instruction) :=
  let cls := enc.lexicon.cls engine req.mnemonic
  let memory : Resolution ResolvedMemory :=
    if req.operands.hasMemory then
      enc.resolveAddress cls.lexicon req
    else
      ⟨⟨.invalid, .invalid, 0, 0, 0, 0⟩, cls.lexicon, []⟩
  { value := (req.operands.toList.mapM (resolveOperand memory.value)).map fun requested =>
      { mode := enc.mode, cls := cls.value, operandBits := req.size.effectiveBits, requested }
    lexicon := memory.lexicon
    events := cls.events ++ memory.events }

def fail (enc : Encoder engine) (req : Request) (events : List Event) (error : EncodeFailure) :
    Outcome engine :=
  { result := .error error
    encoder := { enc with outputSize := 0, lastError := some error }
    events := events ++ [.encodeFailed (req.text engine) error] }

/-- Hands an instruction to the engine. An engine that claims more bytes than the buffer holds has
filled the buffer. -/
def callEngine (enc : Encoder engine) (req : Request) (events : List Event)
    (requested : Instruction) : Outcome engine :=
  let handed := engine.prepare requested
  let events := events ++ [.engineCall requested handed]
  match engine.emit handed enc.buffer with
  | (.error fault, buffer) => { enc with buffer }.fail req events (.ofFault fault)
  | (.ok count, buffer) =>
    let enc := { enc with buffer, outputSize := min count bufferSize, lastError := none }
    { result := .ok enc.output, encoder := enc, events }

/-- Encodes a request and keeps the outcome. -/
def encode (enc : Encoder engine) (req : Request) : Outcome engine :=
  match req.rejection? with
  | some error => enc.fail req [] error
  | none =>
    let resolved := enc.resolve req
    let enc := { enc with lexicon := resolved.lexicon }
    match resolved.value with
    | none => enc.fail req resolved.events .unrepresentable
    | some requested => enc.callEngine req resolved.events requested

end Encoder

end MachineCode
