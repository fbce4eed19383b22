import MachineCode.Session.Team

/-!
The last encode call of every encoder in a run, kept beside the encoders.
-/

namespace MachineCode

abbrev CallResult := Except EncodeFailure (List UInt8)

/-- The bytes of the last encode call; none if it failed or there was none. -/
def CallResult.lastBytes : Option CallResult → List UInt8
  | some (.ok bytes) => bytes
  | _ => []

/-- The action encodes the request or puts a clone in the place of the encoder. -/
def Action.endsOutput : Action → Bool
  | .encode _ | .clone => true
  | _ => false

namespace Session

variable {engine : Engine}

/-- The result of the last encode call after an action, where `last` was the one before. A clone has
not been called yet. -/
def lastResult (session : Session engine) (last : Option CallResult) :
    Action → Option CallResult
  | .encode _ => some (session.encoder.encode session.request).result
  | .clone => none
  | _ => last

end Session

namespace Team

variable {engine : Engine}

/-- The last results of the members after an action. -/
def lastResults (team : Team engine) (results : List (Option CallResult)) :
    TeamAction → List (Option CallResult)
  | .act member action =>
    match team.members[member]? with
    | none => results
    | some session => results.modify member fun last => session.lastResult last action
  | .split member =>
    match team.members[member]? with
    | none => results
    | some _ => results ++ [none]

/-- The last results of the members after a run. -/
def history (team : Team engine) (results : List (Option CallResult)) :
    List TeamAction → List (Option CallResult)
  | [] => results
  | action :: rest => (team.act action).history (team.lastResults results action) rest

end Team

end MachineCode
