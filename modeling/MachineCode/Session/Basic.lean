import MachineCode.Session.Output

/-!
Sessions: an encoder with the request under construction, and the steps and actions that change
them.
-/

namespace MachineCode

inductive Step where
  | reset (mnemonic : String)
  | reg (name : String)
  | regId (id : RegisterId)
  /-- Adds a memory operand at an address to be read from text. -/
  | memText (width : UInt16) (text : String)
  | mem (width : UInt16) (expr : AddressExpr)
  | imm (value : Immediate)
  | size (hint : SizeHint)
  | base (name : String)
  | baseId (id : RegisterId)
  | index (name : String)
  | indexId (id : RegisterId)
  | scale (scale : UInt8)
  | disp (disp : Int32)
  | disp8 (disp : Int8)
  | disp32 (disp : Int32)
  | dispPolicy (policy : DispPolicy)
deriving DecidableEq, Repr

/-- The forms in which an encode call can be asked for its bytes. -/
inductive EncodeCall where
  | result
  | bytes
  | hex
  | writeTo (room : Nat)
deriving DecidableEq, Repr

inductive Action where
  | request (mnemonic : String)
  | step (step : Step)
  | encode (call : EncodeCall)
  | setMode (mode : Mode)
  | setDispPolicy (policy : DispPolicy)
  | setReader (reader : AddressReader)
  | clone

inductive Reply where
  | done
  | refused (error : AddressError)
  | result (result : Except EncodeFailure (List UInt8))
  | bytes (bytes : List UInt8)
  | hex (text : String)
  | written (written : Written)

structure Session (engine : Engine) where
  encoder : Encoder engine
  request : Request

structure Answer (engine : Engine) where
  reply : Reply
  session : Session engine
  events : List Event

namespace Session

variable {engine : Engine}

/-- A session with a new encoder and no request begun. -/
def new (engine : Engine) : Session engine := ⟨{}, .new ""⟩

def update (session : Session engine) (request : Request) : Answer engine :=
  ⟨.done, { session with request }, []⟩

/-- Takes a step. A register is looked up at once, and an address that cannot be read changes
nothing. -/
def step (session : Session engine) (step : Step) : Answer engine :=
  let req := session.request
  match step with
  | .reset mnemonic => session.update (.new mnemonic)
  | .reg name =>
    let found := session.encoder.lexicon.register engine name
    { reply := .done
      session :=
        { encoder := { session.encoder with lexicon := found.lexicon }
          request := req.push (.reg found.value) }
      events := found.events }
  | .regId id => session.update (req.push (.reg id))
  | .memText width text =>
    match session.encoder.reader text with
    | .ok expr => session.update (req.pushMemory width (.ofExpr expr))
    | .error error => ⟨.refused error, session, []⟩
  | .mem width expr => session.update (req.pushMemory width (.ofExpr expr))
  | .imm value => session.update (req.push (.imm value))
  | .size hint => session.update (req.setSize hint)
  | .base name => session.update (req.setBase (.ofName name))
  | .baseId id => session.update (req.setBase (.id id))
  | .index name => session.update (req.setIndex (.ofName name))
  | .indexId id => session.update (req.setIndex (.id id))
  | .scale scale => session.update (req.setScale scale)
  | .disp disp => session.update (req.setDisp disp)
  | .disp8 disp => session.update ((req.setDisp disp.toInt32).setDispPolicy .bits8)
  | .disp32 disp => session.update ((req.setDisp disp).setDispPolicy .bits32)
  | .dispPolicy policy => session.update (req.setDispPolicy policy)

/-- Encodes the request; all four calls do the same work and differ in their reply. -/
def encode (session : Session engine) (call : EncodeCall) : Answer engine :=
  let outcome := session.encoder.encode session.request
  let reply : Reply :=
    match call with
    | .result => .result outcome.result
    | .bytes => .bytes outcome.bytes
    | .hex => .hex outcome.hex
    | .writeTo room => .written (outcome.writeTo room)
  ⟨reply, { session with encoder := outcome.encoder }, outcome.events⟩

def configure (session : Session engine) (encoder : Encoder engine) : Answer engine :=
  ⟨.done, { session with encoder }, []⟩

def act (session : Session engine) : Action → Answer engine
  | .request mnemonic => session.update (.new mnemonic)
  | .step step => session.step step
  | .encode call => session.encode call
  | .setMode mode => session.configure { session.encoder with mode }
  | .setDispPolicy dispPolicy => session.configure { session.encoder with dispPolicy }
  | .setReader reader => session.configure { session.encoder with reader }
  | .clone => session.configure session.encoder.clone

def run (session : Session engine) (actions : List Action) : Session engine :=
  actions.foldl (fun session action => (session.act action).session) session

end Session

end MachineCode
