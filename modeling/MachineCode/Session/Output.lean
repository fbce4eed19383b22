import MachineCode.Session.Encoder

/-!
The forms in which an encode call hands out its bytes: as they are, as hexadecimal text, or written
to a buffer with limited room.
-/

namespace MachineCode

inductive WriteError where
  | invalidInput (error : EncodeFailure)
  | writeZero
deriving DecidableEq, Repr

def WriteError.message : WriteError → String
  | .invalidInput error => error.message
  | .writeZero => "failed to write whole buffer"

/-- The bytes that reached a buffer, and whether these were all. -/
structure Written where
  result : Except WriteError Nat
  bytes : List UInt8

/-- Writes bytes to a buffer with `room` bytes. -/
def writeLimited (room : Nat) (bytes : List UInt8) : Written :=
  { result := if bytes.length ≤ room then .ok bytes.length else .error .writeZero
    bytes := bytes.take room }

namespace Outcome

variable {engine : Engine}

/-- The bytes of an encode call; none after a failure. -/
def bytes (outcome : Outcome engine) : List UInt8 :=
  match outcome.result with
  | .ok bytes => bytes
  | .error _ => []

/-- The bytes as hexadecimal digits; empty after a failure. -/
def hex (outcome : Outcome engine) : String := Hex.ofBytes outcome.bytes

/-- Writes the bytes to a buffer with limited room; after a failure nothing is written. -/
def writeTo (outcome : Outcome engine) (room : Nat) : Written :=
  match outcome.result with
  | .ok bytes => writeLimited room bytes
  | .error error => ⟨.error (.invalidInput error), []⟩

end Outcome

end MachineCode
