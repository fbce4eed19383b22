import Mathlib.Data.List.Forall2
import MachineCode.Proofs.Request.Addresses
import MachineCode.Proofs.Session.Queries
import MachineCode.Proofs.Session.Teams
import MachineCode.Session.Interchange
import MachineCode.X86.Engine

/-!
# Names and their ids

A step may give the id of a register where it could give its name. A run with ids in the place of
some names holds other addresses and remembers other names, yet its members reply alike: the
addresses come to the same registers, and the names that are remembered are those of the tables in
both runs.
-/

namespace MachineCode

/-! ### Encoders -/

namespace Encoder

variable {engine : Engine} {left right : Encoder engine}

/-- The two encoders differ in the names that they remember, if at all. -/
structure Alike (left right : Encoder engine) : Prop where
  eq : right = { left with lexicon := right.lexicon }
  faithful_left : left.lexicon.Faithful engine
  faithful_right : right.lexicon.Faithful engine

theorem Alike.withLexicon (h : left.Alike right) {first second : Lexicon}
    (hfirst : first.Faithful engine) (hsecond : second.Faithful engine) :
    @Alike engine { left with lexicon := first } { right with lexicon := second } :=
  ⟨by rw [h.eq], hfirst, hsecond⟩

theorem Alike.encode_result (h : left.Alike right) {req other : Request}
    (hreq : req.Alike engine other) :
    (right.encode other).result = (left.encode req).result := by
  rw [Encoder.encode_result h.faithful_left, Encoder.encode_result h.faithful_right, h.eq,
    hreq.rejection?, hreq.instruction?]

theorem Alike.encode_encoder (h : left.Alike right) {req other : Request}
    (hreq : req.Alike engine other) :
    (left.encode req).encoder.Alike (right.encode other).encoder := by
  refine ⟨?_, encode_lexicon h.faithful_left req, encode_lexicon h.faithful_right other⟩
  obtain ⟨heq, hleft, hright⟩ := h
  -- All that is left of the second encoder is its lexicon.
  generalize right.lexicon = lexicon at heq hright
  subst heq
  have hvalue : (({ left with lexicon } : Encoder engine).resolve other).value
      = (left.resolve req).value := by
    rw [resolve_value hleft, ← hreq.instruction?]
    exact resolve_value hright other
  rw [encode, encode, hreq.rejection?]
  cases req.rejection? with
  | some failure => rfl
  | none =>
    simp only [hvalue]
    cases (left.resolve req).value with
    | none => rfl
    | some inst =>
      simp only [callEngine]
      generalize engine.emit (engine.prepare inst) left.buffer = emitted
      obtain ⟨_ | count, buffer⟩ := emitted <;> rfl

end Encoder

/-! ### Sessions -/

theorem RegisterRef.resolved_ofName_of_ne {engine : Engine} {name : String} (hname : name ≠ "") :
    (RegisterRef.ofName name).resolved engine = engine.registers.find name := by
  rw [ofName, if_neg (by simpa using hname)]
  rfl

namespace Session

variable {engine : Engine} {left right : Session engine}

/-- The two sessions differ in names and ids, if at all. -/
structure Alike (left right : Session engine) : Prop where
  encoder : left.encoder.Alike right.encoder
  request : left.request.Alike engine right.request

namespace Alike

variable (h : left.Alike right)
include h

theorem update {first second : Request} (hrequest : first.Alike engine second) :
    (right.update second).reply = (left.update first).reply
      ∧ (left.update first).session.Alike (right.update second).session :=
  ⟨rfl, h.encoder, hrequest⟩

theorem configure {first second : Encoder engine} (hencoder : first.Alike second) :
    (right.configure second).reply = (left.configure first).reply
      ∧ (left.configure first).session.Alike (right.configure second).session :=
  ⟨rfl, hencoder, h.request⟩

/-- A register that is pushed by its name is that of the tables, whichever names are remembered. -/
theorem reg (name : String) :
    (left.step (.reg name)).session.request.Alike engine
      (right.request.push (.reg (engine.registers.find name))) := by
  simp only [Session.step, h.encoder.faithful_left.register_value]
  exact h.request.push _

theorem step (taken : Step) :
    (right.step taken).reply = (left.step taken).reply
      ∧ (left.step taken).session.Alike (right.step taken).session := by
  have hreader : right.encoder.reader = left.encoder.reader := by rw [h.encoder.eq]
  cases taken with
  | reset mnemonic => exact h.update (.refl engine _)
  | reg name =>
    refine ⟨rfl, h.encoder.withLexicon ?_ ?_, ?_⟩
    · exact h.encoder.faithful_left.register_lexicon name
    · exact h.encoder.faithful_right.register_lexicon name
    · have hreg := h.reg name
      rwa [← h.encoder.faithful_right.register_value] at hreg
  | regId id => exact h.update (h.request.push _)
  | imm value => exact h.update (h.request.push _)
  | mem width expr => exact h.update (h.request.pushMemory width _)
  | memText width text =>
    simp only [Session.step, hreader]
    cases left.encoder.reader text with
    | ok expr => exact h.update (h.request.pushMemory width _)
    | error error => exact ⟨rfl, h⟩
  | size hint => exact h.update (h.request.setSize hint)
  | base name => exact h.update (h.request.setBase rfl)
  | baseId id => exact h.update (h.request.setBase rfl)
  | index name => exact h.update (h.request.setIndex rfl)
  | indexId id => exact h.update (h.request.setIndex rfl)
  | scale scale => exact h.update (h.request.setScale scale)
  | disp disp => exact h.update (h.request.setDisp disp)
  | disp8 disp => exact h.update ((h.request.setDisp _).setDispPolicy _)
  | disp32 disp => exact h.update ((h.request.setDisp disp).setDispPolicy _)
  | dispPolicy policy => exact h.update (h.request.setDispPolicy policy)

theorem step_givesId {named given : Step}
    (hstep : named.GivesId engine left.encoder.lexicon given) :
    (right.step given).reply = (left.step named).reply
      ∧ (left.step named).session.Alike (right.step given).session := by
  cases hstep with
  | same => exact h.step named
  | @reg name id hid =>
    have hlex := h.encoder.faithful_left
    rw [hlex.register_value] at hid
    subst hid
    exact ⟨rfl, h.encoder.withLexicon (hlex.register_lexicon name) h.encoder.faithful_right,
      h.reg name⟩
  | base hname hid =>
    rw [h.encoder.faithful_left.register_value] at hid
    rw [← RegisterRef.resolved_ofName_of_ne hname] at hid
    exact h.update (h.request.setBase hid.symm)
  | index hname hid =>
    rw [h.encoder.faithful_left.register_value] at hid
    rw [← RegisterRef.resolved_ofName_of_ne hname] at hid
    exact h.update (h.request.setIndex hid.symm)

theorem encode (call : EncodeCall) :
    (right.encode call).reply = (left.encode call).reply
      ∧ (left.encode call).session.Alike (right.encode call).session := by
  have hresult := h.encoder.encode_result h.request
  refine ⟨?_, h.encoder.encode_encoder h.request, h.request⟩
  cases call with
  | result => simp only [Session.encode, hresult]
  | bytes => simp only [Session.encode, Outcome.bytes, hresult]
  | hex => simp only [Session.encode, Outcome.hex, Outcome.bytes, hresult]
  | writeTo room => simp only [Session.encode, Outcome.writeTo, hresult]

theorem act (action : Action) :
    (right.act action).reply = (left.act action).reply
      ∧ (left.act action).session.Alike (right.act action).session := by
  obtain ⟨heq, hleft, hright⟩ := h.encoder
  cases action with
  | request mnemonic => exact h.update (.refl engine _)
  | step step => exact h.step step
  | encode call => exact h.encode call
  | setMode mode => exact h.configure ⟨by rw [heq], hleft, hright⟩
  | setDispPolicy policy => exact h.configure ⟨by rw [heq], hleft, hright⟩
  | setReader reader => exact h.configure ⟨by rw [heq], hleft, hright⟩
  | clone => exact h.configure ⟨by rw [heq]; rfl, hleft, hright⟩

end Alike

end Session

/-! ### Teams -/

section Lists

variable {α β : Type} {R : α → β → Prop} {left : List α} {right : List β}

theorem forall₂_getElem? (h : List.Forall₂ R left right) (index : Nat) :
    (left[index]? = none ∧ right[index]? = none)
      ∨ ∃ x y, left[index]? = some x ∧ right[index]? = some y ∧ R x y := by
  induction h generalizing index with
  | nil => exact .inl ⟨rfl, rfl⟩
  | cons hfirst _ ih =>
    cases index with
    | zero => exact .inr ⟨_, _, rfl, rfl, hfirst⟩
    | succ index => exact ih index

theorem forall₂_set (h : List.Forall₂ R left right) {x : α} {y : β} (hxy : R x y) (index : Nat) :
    List.Forall₂ R (left.set index x) (right.set index y) := by
  induction h generalizing index with
  | nil => exact .nil
  | cons hfirst hrest ih =>
    cases index with
    | zero => exact .cons hxy hrest
    | succ index => exact .cons hfirst (ih index)

end Lists

namespace Team

variable {engine : Engine} {left right : Team engine}

/-- The members of the two teams differ in names and ids, if at all. -/
def Alike (left right : Team engine) : Prop :=
  List.Forall₂ Session.Alike left.members right.members

theorem Alike.share (h : left.Alike right) {first second : Lexicon} (hfirst : first.Faithful engine)
    (hsecond : second.Faithful engine) : (left.share first).Alike (right.share second) := by
  apply List.forall₂_map_left_iff.mpr
  apply List.forall₂_map_right_iff.mpr
  exact h.imp fun _ _ hmember => ⟨hmember.encoder.withLexicon hfirst hsecond, hmember.request⟩

/-- A member that acts in both teams acts alike. -/
theorem Alike.act_member (h : left.Alike right) {member : Nat} {named given : Action}
    (hact : ∀ {session other : Session engine}, left.members[member]? = some session →
      session.Alike other → (other.act given).reply = (session.act named).reply
        ∧ (session.act named).session.Alike (other.act given).session) :
    right.reply? (.act member given) = left.reply? (.act member named)
      ∧ (left.act (.act member named)).Alike (right.act (.act member given)) := by
  rw [reply?, reply?, Team.act, Team.act]
  rcases forall₂_getElem? h member with ⟨hleft, hright⟩ | ⟨session, other, hleft, hright, halike⟩
  · rw [hleft, hright]
    exact ⟨rfl, h⟩
  · obtain ⟨hreply, hnext⟩ := hact hleft halike
    rw [hleft, hright]
    refine ⟨congrArg some hreply, Alike.share ?_ ?_ ?_⟩
    · exact forall₂_set h hnext member
    · exact hnext.encoder.faithful_left
    · exact hnext.encoder.faithful_right

theorem Alike.act_split (h : left.Alike right) (member : Nat) :
    (left.act (.split member)).Alike (right.act (.split member)) := by
  rw [Team.act, Team.act]
  rcases forall₂_getElem? h member with ⟨hleft, hright⟩ | ⟨session, other, hleft, hright, halike⟩
  · rw [hleft, hright]
    exact h
  · have hclone := (halike.act .clone).2.encoder
    rw [hleft, hright]
    exact List.rel_append h (.cons ⟨hclone, .refl engine _⟩ .nil)

theorem Alike.act_givesId (h : left.Alike right) {named given : TeamAction}
    (hgives : left.GivesId named given) :
    right.reply? given = left.reply? named ∧ (left.act named).Alike (right.act given) := by
  cases hgives with
  | same =>
    cases named with
    | act member action => exact h.act_member fun _ hsession => hsession.act action
    | split member => exact ⟨rfl, h.act_split member⟩
  | @step member session named given hsession hstep =>
    refine h.act_member fun {found other} hfound halike => ?_
    -- The member that acts is the one whose lexicon gave the id.
    cases hsession.symm.trans hfound
    exact halike.step_givesId hstep

/-- Runs that differ in names and ids keep teams alike, and all the replies are the same. -/
theorem Alike.run_givesIds {named given : List TeamAction} (hgives : left.GivesIds named given)
    (h : left.Alike right) :
    right.replies given = left.replies named ∧ (left.run named).Alike (right.run given) := by
  -- On the pairing of the actions. The run with ids has a state of its own at each step.
  induction hgives generalizing right with
  | nil => exact ⟨rfl, h⟩
  | cons hfirst _ ih =>
    obtain ⟨hreply, hnext⟩ := h.act_givesId hfirst
    obtain ⟨hreplies, hrun⟩ := ih hnext
    exact ⟨congrArg₂ List.cons hreply hreplies, hrun⟩

theorem primed_alike (engine : Engine) (asked others : List Query) :
    (primed engine asked).Alike (primed engine others) := by
  have hempty := Lexicon.faithful_empty engine
  have hnew : (Team.new engine).Alike (Team.new engine) :=
    .cons ⟨⟨rfl, hempty, hempty⟩, .refl engine _⟩ .nil
  exact hnew.share (hempty.after asked) (hempty.after others)

/-- **A name and its id are interchangeable.** Take two new encoders, with whatever names in their
caches, and a run of each, the second with the ids that are found for any of the names that the
first gives. All the replies of the two runs are the same, those to encode calls among them, and so
are the operands that are stored. -/
theorem replies_givesIds {engine : Engine} {asked others : List Query}
    {named given : List TeamAction} (hgives : (primed engine asked).GivesIds named given) :
    let left := primed engine asked
    let right := primed engine others
    right.replies given = left.replies named
      ∧ (right.run given).members.map (fun session => session.request.operands)
        = (left.run named).members.map (fun session => session.request.operands) := by
  intro left right
  obtain ⟨hreplies, hrun⟩ := (primed_alike engine asked others).run_givesIds hgives
  refine ⟨hreplies, ?_⟩
  rw [← List.forall₂_eq_eq_eq, List.forall₂_map_left_iff, List.forall₂_map_right_iff]
  exact hrun.flip.imp fun _ _ hmember => hmember.request.operands

/-- MOV [RCX+RQX*4], EAX with all three registers given by their ids, that of the unknown name too,
after RCX alone has been looked up. -/
theorem replies_movIds :
    let named : List TeamAction :=
      [.act 0 (.request "MOV"), .act 0 (.step (.memText 32 "")), .act 0 (.step (.reg "EAX")),
        .act 0 (.step (.base "RCX")), .act 0 (.step (.index "RQX")), .act 0 (.encode .bytes)]
    let given : List TeamAction :=
      [.act 0 (.request "MOV"), .act 0 (.step (.memText 32 "")), .act 0 (.step (.regId ⟨17⟩)),
        .act 0 (.step (.baseId ⟨2⟩)), .act 0 (.step (.indexId .invalid)), .act 0 (.encode .bytes)]
    (primed X86.engine [.register "RCX"]).GivesIds named given
      ∧ (primed X86.engine []).replies given
        = (primed X86.engine [.register "RCX"]).replies named := by
  intro named given
  have hgives : (primed X86.engine [.register "RCX"]).GivesIds named given := by
    refine .cons (.same _) (.cons (.same _) (.cons (.step rfl (.reg ?_)) (.cons (.step rfl
      (.base ?_ ?_)) (.cons (.step rfl (.index ?_ ?_)) (.cons (.same _) .nil)))))
    all_goals decide +kernel
  exact ⟨hgives, (replies_givesIds hgives).1⟩

end Team

end MachineCode
