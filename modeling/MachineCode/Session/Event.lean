import MachineCode.Session.Failure
import MachineCode.Inspect.Text

/-!
What an encoder reports about its work, and the lines in which a log shows it.
-/

namespace MachineCode

inductive Event where
  /-- The engine was asked for a register name. -/
  | registerMiss (name : String) (id : RegisterId)
  /-- The engine was asked for a mnemonic. -/
  | classMiss (name : String) (id : ClassId)
  /-- The engine was handed an instruction, which it had prepared from the one asked for. -/
  | engineCall (requested handed : Instruction)
  | encodeFailed (request : String) (error : EncodeFailure)
deriving DecidableEq, Repr

inductive LogLevel where
  | off
  | debug
  | trace
deriving DecidableEq, Repr

namespace LogLevel

def rank : LogLevel → Nat
  | .off => 0
  | .debug => 1
  | .trace => 2

def name : LogLevel → String
  | .off => "OFF"
  | .debug => "DEBUG"
  | .trace => "TRACE"

end LogLevel

namespace Event

/-- Failures are reported at debug level and all else at trace level. -/
def level : Event → LogLevel
  | .encodeFailed _ _ => .debug
  | _ => .trace

def message : Event → String
  | .registerMiss name id => s!"resolver miss: {name} -> " ++ id.inspect
  | .classMiss name id => s!"resolver miss: {name} -> " ++ id.inspect
  | .engineCall requested _ =>
    "engine encode: " ++ requested.mode.text ++ " iclass=" ++ requested.cls.inspect
      ++ s!" eosz={requested.operandBits} operands="
      ++ Inspect.list (requested.requested.map ResolvedOperand.inspect)
  | .encodeFailed request error => s!"encode failed: {request}: " ++ error.message

def line (event : Event) : String := event.level.name ++ " " ++ event.message

end Event

/-- The lines that a log of the given level shows. -/
def logLines (level : LogLevel) (events : List Event) : List String :=
  (events.filter fun event => event.level.rank ≤ level.rank).map Event.line

end MachineCode
