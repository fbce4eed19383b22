import MachineCode.Session.Output

/-!
Writers with limited room. A writer may take an offer piece by piece, and what it has not taken is
offered again until nothing is left or it takes no more.
-/

namespace MachineCode

/-- A writer with room for `room` bytes in all. Of the bytes offered it takes some from the front:
no more than fit behind those it holds, and at least one as long as one fits. -/
structure LimitedWriter (room : Nat) where
  accepts : (held offered : List UInt8) → Nat
  accepts_le_offered : ∀ held offered, accepts held offered ≤ offered.length
  accepts_le_room : ∀ held offered, accepts held offered ≤ room - held.length
  accepts_pos : ∀ held offered, held.length < room → offered ≠ [] → 0 < accepts held offered

namespace LimitedWriter

variable {room : Nat}

/-- Memory of a fixed size takes all that fits at once. -/
instance : Inhabited (LimitedWriter room) where
  default :=
    { accepts := fun held offered => min offered.length (room - held.length)
      accepts_le_offered := fun _ _ => Nat.min_le_left _ _
      accepts_le_room := fun _ _ => Nat.min_le_right _ _
      accepts_pos := fun _ _ hroom hoffered =>
        Nat.lt_min.mpr ⟨List.length_pos_iff.mpr hoffered, Nat.sub_pos_of_lt hroom⟩ }

/-- Offers bytes until all are taken. The answer is also what the writer then holds. -/
def writeAll (writer : LimitedWriter room) (held offered : List UInt8) :
    Except WriteError Unit × List UInt8 :=
  if offered = [] then
    (.ok (), held)
  else
    let count := writer.accepts held offered
    if count = 0 then
      (.error .writeZero, held)
    else
      writer.writeAll (held ++ offered.take count) (offered.drop count)
termination_by offered.length
decreasing_by
  rename_i hoffered hcount
  have hlength := List.length_pos_iff.mpr hoffered
  rw [List.length_drop]
  omega

end LimitedWriter

/-- Writes the bytes of an encode call to a writer that holds nothing yet; after a failure nothing
is offered. -/
def Outcome.writeThrough {engine : Engine} {room : Nat} (outcome : Outcome engine)
    (writer : LimitedWriter room) : Written :=
  match outcome.result with
  | .ok bytes =>
    let (result, held) := writer.writeAll [] bytes
    ⟨result.map fun _ => bytes.length, held⟩
  | .error error => ⟨.error (.invalidInput error), []⟩

end MachineCode
