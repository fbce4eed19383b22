import MachineCode.Proofs.Results
import MachineCode.Session.History

/-!
# Output and last error

The error slot, the count of output bytes and the buffer of an encoder always tell the result of its
last encode call. Encode calls set all three, and nothing else touches them. The induction is over
the actions of a team, with the last results kept in a list beside the members.
-/

namespace MachineCode

namespace Encoder

variable {engine : Engine} {enc other : Encoder engine} {last : Option CallResult}

/-- The encoder shows the result of its last encode call. The bytes are those that the engine left
at the front of the buffer, as many as it claims and the buffer has. -/
inductive Reports (enc : Encoder engine) : Option CallResult → Prop where
  | uncalled (herror : enc.lastError = none) (houtput : enc.output = []) : Reports enc none
  | failed {failure : EncodeFailure} (herror : enc.lastError = some failure)
      (houtput : enc.output = []) : Reports enc (some (.error failure))
  | encoded {inst : Instruction} {scratch : Vector UInt8 bufferSize} {count : Nat}
      (herror : enc.lastError = none) (hemit : engine.emit inst scratch = (.ok count, enc.buffer))
      (houtput : enc.output = enc.buffer.toList.take (min count bufferSize)) :
      Reports enc (some (.ok enc.output))

theorem length_output_le (enc : Encoder engine) : enc.output.length ≤ bufferSize := by
  rw [output, List.length_take, Vector.length_toList]
  exact Nat.min_le_right _ _

theorem Reports.congr (h : enc.Reports last) (herror : other.lastError = enc.lastError)
    (hbuffer : other.buffer = enc.buffer) (hsize : other.outputSize = enc.outputSize) :
    other.Reports last := by
  have houtput : other.output = enc.output := by rw [output, output, hbuffer, hsize]
  cases h with
  | uncalled h hnil => exact .uncalled (herror.trans h) (houtput.trans hnil)
  | failed h hnil => exact .failed (herror.trans h) (houtput.trans hnil)
  | encoded h hemit htake =>
    rw [← hbuffer] at hemit htake
    rw [← houtput] at htake ⊢
    exact .encoded (herror.trans h) hemit htake

theorem reports_fail (enc : Encoder engine) (req : Request) (events : List Event)
    (failure : EncodeFailure) :
    (enc.fail req events failure).encoder.Reports (some (.error failure)) :=
  .failed rfl List.take_zero

theorem reports_callEngine (enc : Encoder engine) (req : Request) (events : List Event)
    (inst : Instruction) :
    (enc.callEngine req events inst).encoder.Reports
      (some (enc.callEngine req events inst).result) := by
  rw [callEngine]
  generalize hemit : engine.emit (engine.prepare inst) enc.buffer = emitted
  obtain ⟨fault | count, buffer⟩ := emitted
  · exact reports_fail _ req _ _
  · exact .encoded rfl hemit rfl

theorem reports_encode (enc : Encoder engine) (req : Request) :
    (enc.encode req).encoder.Reports (some (enc.encode req).result) := by
  rw [encode]
  cases req.rejection? with
  | some failure => exact reports_fail enc req [] failure
  | none =>
    cases hvalue : (enc.resolve req).value with
    | none =>
      simp only [hvalue]
      exact reports_fail _ req _ _
    | some inst =>
      simp only [hvalue]
      exact reports_callEngine _ req _ inst

theorem reports_clone (enc : Encoder engine) : enc.clone.Reports none :=
  .uncalled rfl List.take_zero

theorem Reports.lastError_eq_some_iff (h : enc.Reports last) (failure : EncodeFailure) :
    enc.lastError = some failure ↔ last = some (.error failure) := by
  cases h with
  | uncalled herror | encoded herror => simp [herror]
  | failed herror => simp [herror]

theorem Reports.lastError_eq_none_iff (h : enc.Reports last) :
    enc.lastError = none ↔ last = none ∨ ∃ bytes, last = some (.ok bytes) := by
  cases h with
  | uncalled herror => simp [herror]
  | failed herror => simp [herror]
  | encoded herror => simp [herror]

theorem Reports.output_eq (h : enc.Reports last) :
    enc.output = CallResult.lastBytes last := by
  cases h with
  | uncalled _ houtput | failed _ houtput => exact houtput
  | encoded => rfl

theorem Reports.exists_emit {bytes : List UInt8} (h : enc.Reports (some (.ok bytes))) :
    ∃ inst scratch count, engine.emit inst scratch = (.ok count, enc.buffer)
      ∧ bytes = enc.buffer.toList.take (min count bufferSize) := by
  generalize hlast : some (Except.ok bytes) = last at h
  cases h with
  | uncalled => cases hlast
  | failed => cases hlast
  | encoded _ hemit houtput =>
    cases hlast
    exact ⟨_, _, _, hemit, houtput⟩

end Encoder

namespace Session

variable {engine : Engine} {session : Session engine} {last : Option CallResult}

theorem act_output {action : Action} (haction : action.endsOutput = false)
    (session : Session engine) :
    (session.act action).session.encoder.lastError = session.encoder.lastError
      ∧ (session.act action).session.encoder.buffer = session.encoder.buffer
      ∧ (session.act action).session.encoder.outputSize = session.encoder.outputSize := by
  cases action with
  | encode call => cases haction
  | clone => cases haction
  | step step =>
    cases step with
    | memText width text =>
      simp only [act, step]
      split <;> exact ⟨rfl, rfl, rfl⟩
    | _ => exact ⟨rfl, rfl, rfl⟩
  | _ => exact ⟨rfl, rfl, rfl⟩

theorem reports_act (h : session.encoder.Reports last) (action : Action) :
    (session.act action).session.encoder.Reports (session.lastResult last action) := by
  cases haction : action.endsOutput with
  | true =>
    cases action with
    | encode call => exact session.encoder.reports_encode session.request
    | clone => exact session.encoder.reports_clone
    | _ => cases haction
  | false =>
    obtain ⟨herror, hbuffer, hsize⟩ := act_output haction session
    have hlast : session.lastResult last action = last := by
      cases action with
      | encode call => cases haction
      | clone => cases haction
      | _ => rfl
    rw [hlast]
    exact h.congr herror hbuffer hsize

end Session

namespace Team

variable {engine : Engine} {team : Team engine} {results : List (Option CallResult)}

/-- Each member shows the result that is kept for it. -/
structure Reports (team : Team engine) (results : List (Option CallResult)) : Prop where
  length_eq : team.members.length = results.length
  member {number : Nat} {session : Session engine} {last : Option CallResult}
    (hsession : team.members[number]? = some session) (hlast : results[number]? = some last) :
    session.encoder.Reports last

theorem reports_new (engine : Engine) : (Team.new engine).Reports [none] where
  length_eq := rfl
  member {number session last} hsession hlast := by
    cases number with
    | zero =>
      cases hsession
      cases hlast
      exact .uncalled rfl List.take_zero
    | succ number => cases hsession

/-- What is remembered in common does not show in the output. -/
theorem reports_share (h : team.Reports results) (lexicon : Lexicon) :
    (team.share lexicon).Reports results where
  length_eq := by rw [share, List.length_map, h.length_eq]
  member {number session last} hsession hlast := by
    rw [share, List.getElem?_map] at hsession
    obtain ⟨before, hbefore, rfl⟩ := Option.map_eq_some_iff.mp hsession
    exact (h.member hbefore hlast).congr rfl rfl rfl

theorem reports_set (h : team.Reports results) {number : Nat} {session next : Session engine}
    {change : Option CallResult → Option CallResult}
    (hsession : team.members[number]? = some session)
    (hnext : ∀ last, session.encoder.Reports last → next.encoder.Reports (change last)) :
    Team.Reports ⟨team.members.set number next⟩ (results.modify number change) where
  length_eq := by rw [List.length_set, List.length_modify, h.length_eq]
  member {place member last} hmember hlast := by
    rw [List.getElem?_set] at hmember
    rw [List.getElem?_modify] at hlast
    obtain ⟨before, hbefore, rfl⟩ := Option.map_eq_some_iff.mp hlast
    by_cases hplace : number = place
    · subst hplace
      have hlt : number < team.members.length := (List.getElem?_eq_some_iff.mp hsession).1
      simp only [if_true, hlt] at hmember ⊢
      cases hmember
      exact hnext before (h.member hsession hbefore)
    · simp only [if_neg hplace] at hmember ⊢
      exact h.member hmember hbefore

theorem reports_act (h : team.Reports results) (action : TeamAction) :
    (team.act action).Reports (team.lastResults results action) := by
  cases action with
  | act number action =>
    rw [act, lastResults]
    cases hsession : team.members[number]? with
    | none => exact h
    | some session =>
      exact reports_share
        (reports_set h hsession fun last hlast => Session.reports_act hlast action) _
  | split number =>
    rw [act, lastResults]
    cases hsession : team.members[number]? with
    | none => exact h
    | some session =>
      refine ⟨by simp [h.length_eq], fun {place member last} hmember hlast => ?_⟩
      rw [List.getElem?_append] at hmember hlast
      rw [h.length_eq] at hmember
      split at hmember
      · rename_i hold
        rw [if_pos hold] at hlast
        exact h.member hmember hlast
      · rename_i hnew
        rw [if_neg hnew] at hlast
        have hmem := List.mem_singleton.mp (List.mem_of_getElem? hmember)
        have hnone := List.mem_singleton.mp (List.mem_of_getElem? hlast)
        rw [hmem, hnone]
        exact session.encoder.reports_clone

theorem reports_run (h : team.Reports results) (actions : List TeamAction) :
    (team.run actions).Reports (team.history results actions) := by
  induction actions generalizing team results with
  | nil => exact h
  | cons action actions ih =>
    rw [run, List.foldl_cons, history]
    exact ih (reports_act h action)

/-- **An encoder shows its last call.** In every run of an encoder and its clones, with any engine,
the last error of each is that of its most recent encode call, and its output is the bytes of that
call, no more than fit the buffer. No action but an encode call or cloning changes either. -/
theorem run_output_reports (engine : Engine) (actions : List TeamAction) :
    let team := (Team.new engine).run actions
    let results := (Team.new engine).history [none] actions
    team.members.length = results.length
      ∧ ∀ (number : Nat) (session : Session engine) (last : Option CallResult),
        team.members[number]? = some session → results[number]? = some last →
        (∀ failure, session.encoder.lastError = some failure ↔ last = some (.error failure))
          ∧ (session.encoder.lastError = none ↔ last = none ∨ ∃ bytes, last = some (.ok bytes))
          ∧ session.encoder.output = CallResult.lastBytes last
          ∧ session.encoder.output.length ≤ 48
          ∧ (∀ bytes, last = some (.ok bytes) →
            ∃ inst scratch count, engine.emit inst scratch = (.ok count, session.encoder.buffer)
              ∧ bytes = session.encoder.buffer.toList.take (min count 48))
          ∧ ∀ action : Action, action.endsOutput = false →
            (session.act action).session.encoder.lastError = session.encoder.lastError
              ∧ (session.act action).session.encoder.output = session.encoder.output := by
  intro team results
  have hreports : team.Reports results := reports_run (reports_new engine) actions
  refine ⟨hreports.length_eq, ?_⟩
  intro number session last hsession hlast
  have hmember := hreports.member hsession hlast
  refine ⟨hmember.lastError_eq_some_iff, hmember.lastError_eq_none_iff, hmember.output_eq,
    session.encoder.length_output_le, ?_, ?_⟩
  · rintro bytes rfl
    exact hmember.exists_emit
  · intro action haction
    obtain ⟨herror, hbuffer, hsize⟩ := Session.act_output haction session
    exact ⟨herror, by rw [Encoder.output, Encoder.output, hbuffer, hsize]⟩

end Team

end MachineCode
