import MachineCode.Request.Admission
import MachineCode.Session.Handover

/-!
Encode calls that write their log as they go. A record is written where it arises, if the log shows
its level, and the registers of an address are looked up where the memory operand stands. What the
records are is then said without a log.
-/

namespace MachineCode

/-- A computation that is told the level of the log, and answers also with the lines it wrote. -/
def Logging (α : Type) : Type := LogLevel → α × List String

namespace Logging

instance : Monad Logging where
  pure value := fun _ => (value, [])
  bind first next := fun level =>
    let (value, lines) := first level
    let (result, more) := next value level
    (result, lines ++ more)

/-- Writes the line of an event, unless the log stops short of its level. -/
def record (event : Event) : Logging Unit := fun level =>
  ((), if event.level.rank ≤ level.rank then [event.line] else [])

end Logging

/-- Looks a name up in the cache and else in the table, with a record of the latter. -/
def KnownNames.askLogging {Id : Type} (cache : KnownNames Id) (isValid : Id → Bool)
    (table : String → Id) (miss : String → Id → Event) (name : String) :
    Logging (Id × KnownNames Id) :=
  match cache.find? name with
  | some id => pure (id, cache)
  | none => do
    let id := table name
    Logging.record (miss name id)
    return (id, if isValid id then cache.insert name id else cache)

namespace Lexicon

def registerLogging (engine : Engine) (lex : Lexicon) (name : String) :
    Logging (RegisterId × Lexicon) := do
  let (id, registers) ←
    lex.registers.askLogging RegisterId.isValid engine.registers.find .registerMiss name
  return (id, { lex with registers })

def clsLogging (engine : Engine) (lex : Lexicon) (name : String) : Logging (ClassId × Lexicon) := do
  let (id, classes) ← lex.classes.askLogging ClassId.isValid engine.classes.find .classMiss name
  return (id, { lex with classes })

def referenceLogging (engine : Engine) (lex : Lexicon) :
    RegisterRef → Logging (RegisterId × Lexicon)
  | .none => pure (.invalid, lex)
  | .name name => lex.registerLogging engine name
  | .id id => pure (id, lex)

end Lexicon

namespace Encoder

variable {engine : Engine}

def addressLogging (enc : Encoder engine) (req : Request) (lex : Lexicon) :
    Logging (ResolvedMemory × Lexicon) := do
  let (base, lex) ← lex.referenceLogging engine req.address.base
  let (index, lex) ← lex.referenceLogging engine req.address.index
  let disp := req.address.disp
  let dispBits := (req.dispPolicy.orElse enc.dispPolicy).widthFor disp
  return ({ base, index, scale := req.address.scale, disp := disp.toInt64, dispBits, width := 0 },
    lex)

/-- The operand for the engine. The registers of the address are looked up for memory only. -/
def operandLogging (enc : Encoder engine) (req : Request) (lex : Lexicon) (op : Operand) :
    Logging (Option ResolvedOperand × Lexicon) := do
  let (memory, lex) ←
    if op.kind = .mem then
      enc.addressLogging req lex
    else
      pure (⟨.invalid, .invalid, 0, 0, 0, 0⟩, lex)
  return (resolveOperand memory op, lex)

/-- The operands for the engine, one after the other; the first that has no form ends them. -/
def operandsLogging (enc : Encoder engine) (req : Request) (lex : Lexicon) :
    List Operand → Logging (Option (List ResolvedOperand) × Lexicon)
  | [] => pure (some [], lex)
  | op :: rest => do
    match ← enc.operandLogging req lex op with
    | (none, lex) => return (none, lex)
    | (some asked, lex) =>
      let (more, lex) ← enc.operandsLogging req lex rest
      return (more.map (asked :: ·), lex)

/-- Encodes a request into the buffer. The answer is the number of bytes or the failure, neither of
which the encoder keeps yet. -/
def fillLogging (enc : Encoder engine) (req : Request) :
    Logging (Except EncodeFailure Nat × Encoder engine) := do
  match req.rejection? with
  | some error => return (.error error, enc)
  | none =>
    let (cls, lexicon) ← enc.lexicon.clsLogging engine req.mnemonic
    let (requested, lexicon) ← enc.operandsLogging req lexicon req.operands.toList
    let enc := { enc with lexicon }
    match requested with
    | none => return (.error .unrepresentable, enc)
    | some requested =>
      let inst : Instruction :=
        { mode := enc.mode, cls, operandBits := req.size.effectiveBits, requested }
      Logging.record (.engineCall inst (engine.prepare inst))
      match engine.emit (engine.prepare inst) enc.buffer with
      | (.error fault, buffer) => return (.error (.ofFault fault), { enc with buffer })
      | (.ok count, buffer) => return (.ok (min count bufferSize), { enc with buffer })

/-- Encodes a request and keeps the outcome. -/
def encodeLogging (enc : Encoder engine) (req : Request) :
    Logging (Except EncodeFailure (List UInt8) × Encoder engine) := do
  match ← enc.fillLogging req with
  | (.ok count, enc) =>
    let enc := { enc with outputSize := count, lastError := none }
    return (.ok enc.output, enc)
  | (.error error, enc) =>
    Logging.record (.encodeFailed (req.text engine) error)
    return (.error error, { enc with outputSize := 0, lastError := some error })

end Encoder

/-! ### The records of an encode call -/

/-- The record of looking up the register that a reference names, unless its name is known. -/
def RegisterRef.missEvents (engine : Engine) (known : String → Bool) : RegisterRef → List Event
  | .name given => if known given then [] else [.registerMiss given (engine.registers.find given)]
  | _ => []

/-- The records of the names that a request asks the tables for: the mnemonic, then the base and the
index of a memory operand. The name of the base is known to the index if the engine has a register
of that name. -/
def Encoder.missEvents {engine : Engine} (enc : Encoder engine) (req : Request) : List Event :=
  let mnemonicKnown := (enc.lexicon.classes.find? req.mnemonic).isSome
  let known name := (enc.lexicon.registers.find? name).isSome
  let knownThen name :=
    known name || (req.address.base == .name name && (engine.registers.find name).isValid)
  (if mnemonicKnown then [] else [.classMiss req.mnemonic (engine.classes.find req.mnemonic)])
    ++ if req.operands.hasMemory then
      req.address.base.missEvents engine known ++ req.address.index.missEvents engine knownThen
    else
      []

/-- The record of the failure of an encode call, if it failed. -/
def Outcome.failureEvents {engine : Engine} (outcome : Outcome engine) (req : Request) :
    List Event :=
  match outcome.result with
  | .ok _ => []
  | .error failure => [.encodeFailed (req.text engine) failure]

/-- The records of an encode call. The one of a call of the engine describes the instruction whose
answer is that of the encode call, and which left the buffer as it is. -/
inductive Encoder.Records {engine : Engine} (enc : Encoder engine) (req : Request) :
    List Event → Prop where
  | rejected {failure : EncodeFailure} (hrejected : req.RejectedFor failure) :
      Records enc req [.encodeFailed (req.text engine) failure]
  | called {inst : Instruction} (hkept : ∀ failure, ¬ req.RejectedFor failure)
      (hresult : (enc.encode req).result = engine.answer inst enc.buffer)
      (hbuffer : (enc.encode req).encoder.buffer =
        (engine.emit (engine.prepare inst) enc.buffer).2) :
      Records enc req (enc.missEvents req
        ++ .engineCall inst (engine.prepare inst) :: (enc.encode req).failureEvents req)

end MachineCode
