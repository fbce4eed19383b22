import MachineCode.Proofs.Session.History
import MachineCode.Proofs.Text.Hex
import MachineCode.Session.Writer

/-!
# The forms of an answer

However an encode call is asked for its bytes, the work is the same and only the form of the answer
differs. A writer with limited room ends up with the front of the bytes, in whatever pieces it takes
them.
-/

namespace MachineCode

/-! ### Writers -/

namespace LimitedWriter

variable {room : Nat}

/-- The induction is on what is left to offer. An offer that is taken in part moves the border
between what is held and what is offered, and no byte. -/
theorem writeAll_eq (writer : LimitedWriter room) (held offered : List UInt8) :
    writer.writeAll held offered =
      if offered.length ≤ room - held.length then
        (.ok (), held ++ offered)
      else
        (.error .writeZero, held ++ offered.take (room - held.length)) := by
  induction held, offered using writeAll.induct writer with
  | case1 held =>
    rw [writeAll]
    simp
  | case2 held offered hoffered count hcount =>
    have hfull : ¬ held.length < room := by
      intro hroom
      have hpos : 0 < count := writer.accepts_pos held offered hroom hoffered
      omega
    have hnone : room - held.length = 0 := by omega
    have hlength := List.length_pos_iff.mpr hoffered
    have hrefused : ¬ offered.length ≤ 0 := by omega
    rw [writeAll, if_neg hoffered, hnone, if_neg hrefused, List.take_zero, List.append_nil]
    exact if_pos hcount
  | case3 held offered hoffered count hcount ih =>
    have hoffer : count ≤ offered.length := writer.accepts_le_offered held offered
    have hroom : count ≤ room - held.length := writer.accepts_le_room held offered
    have hleft : room - (held ++ offered.take count).length = room - held.length - count := by
      rw [List.length_append, List.length_take]
      omega
    have hfits : (offered.drop count).length ≤ room - held.length - count
        ↔ offered.length ≤ room - held.length := by
      rw [List.length_drop]
      omega
    have hfront : offered.take count ++ (offered.drop count).take (room - held.length - count)
        = offered.take (room - held.length) := by
      rw [← List.take_add, Nat.add_sub_cancel' hroom]
    rw [writeAll, if_neg hoffered]
    simp only [count, if_neg hcount] at ih hleft hfits hfront ⊢
    rw [ih, hleft]
    simp only [hfits, List.append_assoc, List.take_append_drop, hfront]

end LimitedWriter

/-- The pieces in which a writer takes the bytes do not show in the end. -/
theorem Outcome.writeThrough_eq {engine : Engine} {room : Nat} (outcome : Outcome engine)
    (writer : LimitedWriter room) : outcome.writeThrough writer = outcome.writeTo room := by
  rw [writeThrough, writeTo]
  cases outcome.result with
  | error failure => rfl
  | ok bytes =>
    simp only [writer.writeAll_eq, List.length_nil, Nat.sub_zero, List.nil_append, writeLimited]
    by_cases hfits : bytes.length ≤ room
    · simp only [if_pos hfits, List.take_of_length_le hfits]
      rfl
    · simp only [if_neg hfits]
      rfl

/-! ### Encode calls -/

namespace Session

variable {engine : Engine}

/-- **One call in four forms.** From one session, the four ways to ask for an encoding agree. If the
result is a byte string, then the bytes are that string, the text is the only one that spells it,
and a writer with room for some bytes holds the front of it, in whatever pieces it takes them. If
the result is a failure, then there are no bytes and no digits, and the writer holds nothing. In
each case the session is the same afterwards, its encoder shows the result and its request is as
before; that a writer ran out of room does not matter to it. -/
theorem encode_forms_agree (session : Session engine) :
    let outcome := session.encoder.encode session.request
    let after := (session.encode .result).session
    (session.encode .result).reply = .result outcome.result
      ∧ (∀ bytes, outcome.result = .ok bytes →
        (session.encode .bytes).reply = .bytes bytes
          ∧ (∃ text, (session.encode .hex).reply = .hex text ∧ text.length = 2 * bytes.length
            ∧ (∀ c ∈ text.toList, Hex.isDigit c)
            ∧ ∀ other : String, Hex.bytes? other.toList = some bytes ↔ other = text)
          ∧ (∀ room (writer : LimitedWriter room), ∃ written : Written,
            outcome.writeThrough writer = written
              ∧ (session.encode (.writeTo room)).reply = .written written
              ∧ written.bytes = bytes.take (min room bytes.length)
              ∧ written.result =
                if bytes.length ≤ room then .ok bytes.length else .error .writeZero)
          ∧ after.encoder.output = bytes ∧ after.encoder.lastError = none)
      ∧ (∀ failure, outcome.result = .error failure →
        (session.encode .bytes).reply = .bytes []
          ∧ (session.encode .hex).reply = .hex ""
          ∧ (∀ room (writer : LimitedWriter room),
            outcome.writeThrough writer = ⟨.error (.invalidInput failure), []⟩
              ∧ (session.encode (.writeTo room)).reply
                = .written ⟨.error (.invalidInput failure), []⟩)
          ∧ after.encoder.output = [] ∧ after.encoder.lastError = some failure)
      ∧ ∀ call, (session.encode call).session = after
        ∧ (session.encode call).events = (session.encode .result).events
        ∧ (session.encode call).session.request = session.request := by
  intro outcome after
  have hreports : after.encoder.Reports (some outcome.result) :=
    session.encoder.reports_encode session.request
  refine ⟨rfl, fun bytes hresult => ?_, fun failure hresult => ?_, fun call => ⟨rfl, rfl, rfl⟩⟩
  · have hbytes : outcome.bytes = bytes := by rw [Outcome.bytes, hresult]
    have hhex : outcome.hex = Hex.ofBytes bytes := by rw [Outcome.hex, hbytes]
    have hwritten (room : Nat) : outcome.writeTo room = writeLimited room bytes := by
      rw [Outcome.writeTo, hresult]
    rw [hresult] at hreports
    refine ⟨congrArg Reply.bytes hbytes, ⟨Hex.ofBytes bytes, congrArg Reply.hex hhex, ?_⟩, ?_,
      hreports.output_eq, hreports.lastError_eq_none_iff.mpr (.inr ⟨bytes, rfl⟩)⟩
    · exact ⟨Hex.length_ofBytes bytes, fun c => Hex.isDigit_of_mem_ofBytes,
        fun other => Hex.bytes?_toList_eq_some_iff⟩
    · intro room writer
      refine ⟨writeLimited room bytes, (outcome.writeThrough_eq writer).trans (hwritten room),
        congrArg Reply.written (hwritten room), ?_, rfl⟩
      exact List.take_eq_take_min
  · have hbytes : outcome.bytes = [] := by rw [Outcome.bytes, hresult]
    have hhex : outcome.hex = "" := by
      rw [Outcome.hex, hbytes]
      rfl
    have hwritten (room : Nat) : outcome.writeTo room = ⟨.error (.invalidInput failure), []⟩ := by
      rw [Outcome.writeTo, hresult]
    rw [hresult] at hreports
    refine ⟨congrArg Reply.bytes hbytes, congrArg Reply.hex hhex, fun room writer => ?_,
      hreports.output_eq, (hreports.lastError_eq_some_iff failure).mpr rfl⟩
    exact ⟨(outcome.writeThrough_eq writer).trans (hwritten room),
      congrArg Reply.written (hwritten room)⟩

end Session

end MachineCode
