import MachineCode.Proofs.Session.Runs
import MachineCode.Session.Team

/-!
# Runs of a team

What holds of a new session, and what actions, clones and names taken over from another session
preserve, holds of every member of a team after every run.
-/

namespace MachineCode

namespace Team

variable {engine : Engine} {motive : Session engine → Prop}

/-- A property of sessions that no step of a team can end. -/
structure Kept (motive : Session engine → Prop) : Prop where
  new : motive (.new engine)
  act {session : Session engine} (h : motive session) (action : Action) :
    motive (session.act action).session
  split {session : Session engine} (h : motive session) :
    motive ⟨session.encoder.clone, .new ""⟩
  share {session other : Session engine} (h : motive session) (hother : motive other) :
    motive { session with encoder := { session.encoder with lexicon := other.encoder.lexicon } }

theorem Kept.step (h : Kept motive) {team : Team engine} (hteam : ∀ session ∈ team.members,
    motive session) (action : TeamAction) : ∀ session ∈ (team.act action).members, motive session := by
  cases action with
  | act member action =>
    rw [Team.act]
    cases hmember : team.members[member]? with
    | none => exact hteam
    | some session =>
      have hnext : motive (session.act action).session :=
        h.act (hteam session (List.mem_of_getElem? hmember)) action
      intro shared hshared
      obtain ⟨before, hbefore, rfl⟩ := List.mem_map.mp hshared
      refine h.share ?_ hnext
      rcases List.mem_or_eq_of_mem_set hbefore with hold | rfl
      · exact hteam before hold
      · exact hnext
  | split member =>
    rw [Team.act]
    cases hmember : team.members[member]? with
    | none => exact hteam
    | some session =>
      intro other hother
      rcases List.mem_append.mp hother with hold | hclone
      · exact hteam other hold
      · rw [List.mem_singleton.mp hclone]
        exact h.split (hteam session (List.mem_of_getElem? hmember))

theorem Kept.run (h : Kept motive) (actions : List TeamAction) :
    ∀ session ∈ ((Team.new engine).run actions).members, motive session := by
  have hstart : ∀ session ∈ (Team.new engine).members, motive session := by
    intro session hmem
    rw [List.mem_singleton.mp hmem]
    exact h.new
  rw [Team.run]
  -- A run goes on from any team, of which the first action asks only that the property holds.
  generalize Team.new engine = team at hstart
  induction actions generalizing team with
  | nil => exact hstart
  | cons action actions ih => exact ih _ (h.step hstart action)

/-- The names that the members remember are those of the tables. -/
theorem faithful_run (engine : Engine) (actions : List TeamAction) :
    ∀ session ∈ ((Team.new engine).run actions).members,
      session.encoder.lexicon.Faithful engine := by
  refine Kept.run ⟨Lexicon.faithful_empty engine, ?_, ?_, ?_⟩ actions
  · exact fun h action => Session.act_lexicon h action
  · exact fun h => h
  · exact fun _ hother => hother

/-- The operands of every request fill their slots from the front. -/
theorem packed_run (engine : Engine) (actions : List TeamAction) :
    ∀ session ∈ ((Team.new engine).run actions).members, session.request.operands.Packed := by
  refine Kept.run ⟨OperandSlots.packed_empty, ?_, ?_, ?_⟩ actions
  · exact fun h action => Session.act_packed h action
  · exact fun _ => OperandSlots.packed_empty
  · exact fun h _ => h

end Team

end MachineCode
