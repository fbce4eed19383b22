import MachineCode.Proofs.Request.Slots
import MachineCode.Proofs.Session.Encoding
import MachineCode.Session.Basic

/-!
# Runs of a session

What every action preserves holds after every run. Two such properties are that the remembered names
are faithful, and that the operands of the request fill their slots from the front.
-/

namespace MachineCode

namespace Session

variable {engine : Engine} {session : Session engine}

theorem run_induction {motive : Session engine → Prop}
    (hact : ∀ session action, motive session → motive (session.act action).session)
    {session : Session engine} (hstart : motive session) (actions : List Action) :
    motive (session.run actions) := by
  induction actions generalizing session with
  | nil => exact hstart
  | cons action actions ih =>
    rw [run, List.foldl_cons]
    exact ih (hact session action hstart)

/-! ### The remembered names -/

theorem step_lexicon (hlex : session.encoder.lexicon.Faithful engine) (step : Step) :
    (session.step step).session.encoder.lexicon.Faithful engine := by
  cases step with
  | reg name => exact hlex.register_lexicon name
  | memText width text =>
    simp only [Session.step]
    split <;> exact hlex
  | _ => exact hlex

theorem act_lexicon (hlex : session.encoder.lexicon.Faithful engine) (action : Action) :
    (session.act action).session.encoder.lexicon.Faithful engine := by
  cases action with
  | step step => exact step_lexicon hlex step
  | encode call => exact Encoder.encode_lexicon hlex session.request
  | _ => exact hlex

/-- The names remembered in a run are those of the tables. -/
theorem run_lexicon (engine : Engine) (actions : List Action) :
    ((new engine).run actions).encoder.lexicon.Faithful engine :=
  run_induction (motive := fun session => session.encoder.lexicon.Faithful engine)
    (fun _ action hlex => act_lexicon hlex action) (Lexicon.faithful_empty engine) actions

/-! ### The operands -/

theorem step_packed (h : session.request.operands.Packed) (step : Step) :
    (session.step step).session.request.operands.Packed := by
  cases step with
  | reset mnemonic => exact OperandSlots.packed_empty
  | reg name => exact Request.packed_push h (by simp)
  | regId id => exact Request.packed_push h (by simp)
  | memText width text =>
    simp only [Session.step]
    split
    · exact Request.packed_pushMemory h width _
    · exact h
  | mem width expr => exact Request.packed_pushMemory h width _
  | imm value => exact Request.packed_push h (by simp)
  | _ => exact h

theorem act_packed (h : session.request.operands.Packed) (action : Action) :
    (session.act action).session.request.operands.Packed := by
  cases action with
  | request mnemonic => exact OperandSlots.packed_empty
  | step step => exact step_packed h step
  | _ => exact h

theorem run_packed (encoder : Encoder engine) (mnemonic : String) (actions : List Action) :
    ((⟨encoder, .new mnemonic⟩ : Session engine).run actions).request.operands.Packed :=
  run_induction (motive := fun session => session.request.operands.Packed)
    (fun _ action h => act_packed h action) OperandSlots.packed_empty actions

end Session

end MachineCode
