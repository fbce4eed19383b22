import MachineCode.Session.Basic

/-!
Two routes to a memory operand. The address can be written as one text, or be set part by part
behind an empty text.
-/

namespace MachineCode

namespace Step

/-- The step replaces the request, or a part of its address. -/
def setsAddress : Step → Bool
  | .reset _ | .base _ | .baseId _ | .index _ | .indexId _ | .scale _ | .disp _ | .disp8 _
  | .disp32 _ => true
  | _ => false

/-- Adds a memory operand with the address in one text. -/
def written (width : UInt16) (expr : AddressExpr) : List Step := [.memText width expr.render]

/-- Adds a memory operand without an address, and then sets the parts of one. -/
def filled (width : UInt16) (expr : AddressExpr) : List Step :=
  [.memText width "", .base expr.base, .index expr.index, .scale expr.scale, .disp expr.disp]

end Step

namespace Session

variable {engine : Engine}

def follow (session : Session engine) (steps : List Step) : Session engine :=
  session.run (steps.map .step)

/-- What an encode call answers now. -/
def answer (session : Session engine) : Except EncodeFailure (List UInt8) :=
  (session.encoder.encode session.request).result

end Session

end MachineCode
