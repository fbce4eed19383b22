import MachineCode.Session.Basic

/-!
Encoders that share the names they remember, as an encoder and its clones do. Each works on a request
of its own.
-/

namespace MachineCode

structure Team (engine : Engine) where
  members : List (Session engine)

inductive TeamAction where
  | act (member : Nat) (action : Action)
  /-- Adds a clone of a member's encoder, with no request begun. -/
  | split (member : Nat)

namespace Team

variable {engine : Engine}

/-- One new encoder. -/
def new (engine : Engine) : Team engine := ⟨[.new engine]⟩

/-- What one member has come to remember, all remember. -/
def share (team : Team engine) (lexicon : Lexicon) : Team engine :=
  ⟨team.members.map fun session => { session with encoder := { session.encoder with lexicon } }⟩

/-- Lets a member act; a number beyond the last member does nothing. -/
def act (team : Team engine) : TeamAction → Team engine
  | .act member action =>
    match team.members[member]? with
    | none => team
    | some session =>
      let next := (session.act action).session
      share ⟨team.members.set member next⟩ next.encoder.lexicon
  | .split member =>
    match team.members[member]? with
    | none => team
    | some session => ⟨team.members ++ [⟨session.encoder.clone, .new ""⟩]⟩

def run (team : Team engine) (actions : List TeamAction) : Team engine := actions.foldl act team

end Team

end MachineCode
