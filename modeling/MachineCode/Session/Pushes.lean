import MachineCode.Request.Admission
import MachineCode.Session.Basic

/-!
The operands that are pushed in a run, whether or not they are stored, and the actions that are not
declined at their turn.
-/

namespace MachineCode

/-- The action begins a request, so that what was pushed before it no longer counts. -/
def Action.beginsRequest : Action → Bool
  | .request _ | .step (.reset _) => true
  | _ => false

namespace Session

variable {engine : Engine}

/-- The operand that an action pushes. The name of a register stands for the id that the encoder
finds, and an address that cannot be read pushes nothing. -/
def pushed? (session : Session engine) : Action → Option Operand
  | .step (.reg name) => some (.reg (session.encoder.lexicon.register engine name).value)
  | .step (.regId id) => some (.reg id)
  | .step (.memText width text) =>
    match session.encoder.reader text with
    | .ok _ => some (.mem width)
    | .error _ => none
  | .step (.mem width _) => some (.mem width)
  | .step (.imm value) => some (.imm value)
  | _ => none

/-- The operands pushed since the last request was begun, where `pushed` were pushed before the
run. -/
def pushes (session : Session engine) (pushed : List Operand) : List Action → List Operand
  | [] => pushed
  | action :: rest =>
    let pushed := if action.beginsRequest then [] else pushed ++ (session.pushed? action).toList
    (session.act action).session.pushes pushed rest

/-- The action gives an address that cannot be read. -/
def cannotRead (session : Session engine) : Action → Bool
  | .step (.memText _ text) => !(session.encoder.reader text).isOk
  | _ => false

/-- The action pushes an operand that is refused, or gives an address that cannot be read. -/
def Declines (session : Session engine) (action : Action) : Prop :=
  (∃ op ∈ session.pushed? action, ∃ reason, Refuses session.request.operands.toList op reason)
    ∨ session.cannotRead action

instance (session : Session engine) (action : Action) : Decidable (session.Declines action) :=
  inferInstanceAs (Decidable (_ ∨ _))

/-- The actions of a run without those that are declined at their turn. -/
def accepted (session : Session engine) : List Action → List Action
  | [] => []
  | action :: rest =>
    let later := (session.act action).session.accepted rest
    if session.Declines action then later else action :: later

end Session

end MachineCode
