import MachineCode.Session.Queries
import MachineCode.Session.Team

/-!
Runs that give the ids of registers in the place of their names, and what the members of a team
reply in a run.
-/

namespace MachineCode

/-- The second step is the first, or gives the id that a lexicon finds where the first gives a name.
The empty name of an address stands for no register and has no id. -/
inductive Step.GivesId (engine : Engine) (lex : Lexicon) : Step → Step → Prop where
  | same (step : Step) : GivesId engine lex step step
  | reg {name : String} {id : RegisterId} (hid : (lex.register engine name).value = id) :
      GivesId engine lex (.reg name) (.regId id)
  | base {name : String} {id : RegisterId} (hname : name ≠ "")
      (hid : (lex.register engine name).value = id) : GivesId engine lex (.base name) (.baseId id)
  | index {name : String} {id : RegisterId} (hname : name ≠ "")
      (hid : (lex.register engine name).value = id) : GivesId engine lex (.index name) (.indexId id)

namespace Team

variable {engine : Engine}

/-- One new encoder, with the names in its cache for which others have asked. -/
def primed (engine : Engine) (asked : List Query) : Team engine :=
  (Team.new engine).share (Lexicon.after engine {} asked)

/-- The second action is the first, or its step gives an id that the member finds for a name. -/
inductive GivesId (team : Team engine) : TeamAction → TeamAction → Prop where
  | same (action : TeamAction) : GivesId team action action
  | step {member : Nat} {session : Session engine} {named given : Step}
      (hsession : team.members[member]? = some session)
      (hstep : named.GivesId engine session.encoder.lexicon given) :
      GivesId team (.act member (.step named)) (.act member (.step given))

/-- The second run is the first with ids in the place of any of its names, each found when its turn
comes. -/
inductive GivesIds : Team engine → List TeamAction → List TeamAction → Prop where
  | nil {team : Team engine} : GivesIds team [] []
  | cons {team : Team engine} {named given : TeamAction} {rest others : List TeamAction}
      (hfirst : team.GivesId named given) (hrest : GivesIds (team.act named) rest others) :
      GivesIds team (named :: rest) (given :: others)

/-- What the member that acts replies. -/
def reply? (team : Team engine) : TeamAction → Option Reply
  | .act member action => team.members[member]?.map fun session => (session.act action).reply
  | .split _ => none

def replies (team : Team engine) : List TeamAction → List (Option Reply)
  | [] => []
  | action :: rest => team.reply? action :: (team.act action).replies rest

end Team

end MachineCode
