import MachineCode.Proofs.Session.Pushes

/-!
# Refused steps leave no trace

A step that pushes an operand that cannot be stored, or gives an address that cannot be read,
changes nothing of a request but the kept misuse. So a run without its refused actions builds the
same request, without a misuse. The two runs look up different names, which matters as little: what
a lexicon answers does not change as it is asked.
-/

namespace MachineCode

/-! ### Answers of a lexicon -/

namespace KnownNames

variable {Id : Type}

theorem id_ask (cache : KnownNames Id) (isValid : Id → Bool) (table : String → Id) (name : String) :
    (cache.ask isValid table name).id = (cache.find? name).getD (table name) := by
  rw [ask]
  cases cache.find? name <;> rfl

/-- A question does not change the answer to any other. -/
theorem id_ask_cache (cache : KnownNames Id) (isValid : Id → Bool) (table : String → Id)
    (name other : String) :
    ((cache.ask isValid table name).cache.ask isValid table other).id
      = (cache.ask isValid table other).id := by
  rw [id_ask, id_ask, ask]
  cases hfound : cache.find? name with
  | some id => rfl
  | none =>
    -- A name enters the cache with the id that the table would have given.
    by_cases hvalid : isValid (table name)
    · simp only [hvalid, if_true, find?_insert]
      by_cases heq : other = name
      · rw [if_pos heq, heq, hfound]
        rfl
      · rw [if_neg heq]
    · simp only [hvalid, Bool.false_eq_true, if_false]

end KnownNames

namespace Lexicon

variable {engine : Engine}

/-- What a lexicon answers to every name of a register. -/
def registerIds (engine : Engine) (lex : Lexicon) : String → RegisterId :=
  fun name => (lex.register engine name).value

theorem registerIds_register (lex : Lexicon) (name : String) :
    (lex.register engine name).lexicon.registerIds engine = lex.registerIds engine := by
  funext other
  exact lex.registers.id_ask_cache RegisterId.isValid engine.registers.find name other

theorem registerIds_reference (lex : Lexicon) (ref : RegisterRef) :
    (lex.reference engine ref).lexicon.registerIds engine = lex.registerIds engine := by
  cases ref with
  | name name => exact lex.registerIds_register name
  | _ => rfl

end Lexicon

namespace Encoder

variable {engine : Engine}

theorem registerIds_resolve (enc : Encoder engine) (req : Request) :
    (enc.resolve req).lexicon.registerIds engine = enc.lexicon.registerIds engine := by
  rw [resolve]
  cases req.operands.hasMemory with
  | true =>
    exact (Lexicon.registerIds_reference _ req.address.index).trans
      (Lexicon.registerIds_reference _ req.address.base)
  | false => rfl

theorem registerIds_encode (enc : Encoder engine) (req : Request) :
    (enc.encode req).encoder.lexicon.registerIds engine = enc.lexicon.registerIds engine := by
  rw [encode]
  cases req.rejection? with
  | some failure => rfl
  | none =>
    have hresolve := enc.registerIds_resolve req
    cases hvalue : (enc.resolve req).value with
    | none => simpa only [hvalue, fail] using hresolve
    | some inst => simpa only [hvalue, callEngine_lexicon] using hresolve

end Encoder

theorem Session.registerIds_act {engine : Engine} (session : Session engine) (action : Action) :
    (session.act action).session.encoder.lexicon.registerIds engine
      = session.encoder.lexicon.registerIds engine := by
  cases action with
  | encode call => exact session.encoder.registerIds_encode session.request
  | step step =>
    cases step with
    | reg name => exact session.encoder.lexicon.registerIds_register name
    | memText width text =>
      simp only [act, Session.step]
      split <;> rfl
    | _ => rfl
  | _ => rfl

/-! ### Refused actions -/

namespace Request

variable {req : Request} {op : Operand} {reason : Misuse}

def withoutMisuse (req : Request) : Request := { req with misuse := none }

theorem append_withoutMisuse (req : Request) (op : Operand) :
    req.withoutMisuse.append op = (req.append op).map withoutMisuse := by
  have hoperands : req.withoutMisuse.operands = req.operands := rfl
  rw [append, append, hoperands]
  split
  · rfl
  split
  · rfl
  cases req.operands.push op <;> rfl

theorem exists_append_eq_ok (hsize : req.operands.size ≤ operandLimit)
    (h : ¬ ∃ reason, Refuses req.operands.toList op reason) :
    ∃ appended, req.append op = .ok appended := by
  cases happend : req.append op with
  | ok appended => exact ⟨appended, rfl⟩
  | error reason => exact absurd ⟨reason, refuses_of_append hsize happend⟩ h

theorem exists_append_eq_error (hsize : req.operands.size ≤ operandLimit)
    (h : ∃ reason, Refuses req.operands.toList op reason) :
    ∃ reason, req.append op = .error reason := by
  obtain ⟨reason, hreason⟩ := h
  cases happend : req.append op with
  | ok appended => exact absurd hreason (not_refuses_of_append hsize happend reason)
  | error misuse => exact ⟨misuse, rfl⟩

/-- An operand that is refused leaves no more than a misuse. -/
theorem push_of_refused (hsize : req.operands.size ≤ operandLimit)
    (h : ∃ reason, Refuses req.operands.toList op reason) :
    (req.push op).withoutMisuse = req.withoutMisuse := by
  obtain ⟨reason, happend⟩ := exists_append_eq_error hsize h
  rw [push, happend]
  rfl

theorem pushMemory_of_refused (hsize : req.operands.size ≤ operandLimit) {width : UInt16}
    (h : ∃ reason, Refuses req.operands.toList (.mem width) reason) (address : Address) :
    (req.pushMemory width address).withoutMisuse = req.withoutMisuse := by
  obtain ⟨reason, happend⟩ := exists_append_eq_error hsize h
  rw [pushMemory, happend]
  rfl

/-- An operand that is stored is stored whether or not a misuse is kept. -/
theorem push_withoutMisuse (hsize : req.operands.size ≤ operandLimit)
    (h : ¬ ∃ reason, Refuses req.operands.toList op reason) :
    req.withoutMisuse.push op = (req.push op).withoutMisuse := by
  obtain ⟨appended, happend⟩ := exists_append_eq_ok hsize h
  rw [push, push, append_withoutMisuse, happend]
  rfl

theorem pushMemory_withoutMisuse (hsize : req.operands.size ≤ operandLimit) {width : UInt16}
    (h : ¬ ∃ reason, Refuses req.operands.toList (.mem width) reason) (address : Address) :
    req.withoutMisuse.pushMemory width address = (req.pushMemory width address).withoutMisuse := by
  obtain ⟨appended, happend⟩ := exists_append_eq_ok hsize h
  rw [pushMemory, pushMemory, append_withoutMisuse, happend]
  rfl

end Request

namespace Session

variable {engine : Engine}

/-! ### Two runs -/

/-- The second session is the first without its refused actions: the requests are the same but for
the misuse, addresses are read alike, and names have the same ids. -/
structure Shadows (full pruned : Session engine) : Prop where
  request : pruned.request = full.request.withoutMisuse
  reader : pruned.encoder.reader = full.encoder.reader
  names : pruned.encoder.lexicon.registerIds engine = full.encoder.lexicon.registerIds engine
  packed : full.request.operands.Packed

variable {full pruned : Session engine} {action : Action}

theorem step_reader (session : Session engine) (step : Step) :
    (session.step step).session.encoder.reader = session.encoder.reader := by
  cases step with
  | memText width text =>
    simp only [Session.step]
    split <;> rfl
  | _ => rfl

theorem act_of_declines (hsize : full.request.operands.size ≤ operandLimit)
    (h : full.Declines action) :
    (full.act action).session.request.withoutMisuse = full.request.withoutMisuse
      ∧ (full.act action).session.encoder.reader = full.encoder.reader := by
  cases action with
  | step step =>
    refine ⟨?_, full.step_reader step⟩
    cases step with
    | reg name | regId id | imm value =>
      obtain ⟨_, ⟨⟩, hrefused⟩ | ⟨⟨⟩⟩ := h
      exact Request.push_of_refused hsize hrefused
    | mem width expr =>
      obtain ⟨_, ⟨⟩, hrefused⟩ | ⟨⟨⟩⟩ := h
      exact Request.pushMemory_of_refused hsize hrefused _
    | memText width text =>
      simp only [Declines, pushed?, cannotRead] at h
      simp only [act, Session.step]
      cases hread : full.encoder.reader text with
      | error error => rfl
      | ok expr =>
        rw [hread] at h
        obtain ⟨_, ⟨⟩, hrefused⟩ | ⟨⟨⟩⟩ := h
        exact Request.pushMemory_of_refused hsize hrefused _
    | _ => obtain ⟨_, ⟨⟩, _⟩ | ⟨⟨⟩⟩ := h
  | _ => obtain ⟨_, ⟨⟩, _⟩ | ⟨⟨⟩⟩ := h

namespace Shadows

variable (h : Shadows full pruned)
include h

theorem declines (hdeclined : full.Declines action) : Shadows (full.act action).session pruned := by
  obtain ⟨hrequest, hreader⟩ := act_of_declines h.packed.size_le hdeclined
  exact
    { request := h.request.trans hrequest.symm
      reader := h.reader.trans hreader.symm
      names := h.names.trans (full.registerIds_act action).symm
      packed := act_packed h.packed action }

theorem request_step {step : Step} (hkept : ¬ full.Declines (.step step)) :
    (pruned.step step).session.request = (full.step step).session.request.withoutMisuse := by
  have hrequest := h.request
  have hsize := h.packed.size_le
  have hpush {op : Operand} (hop : op ∈ full.pushed? (.step step)) :
      ¬ ∃ reason, Refuses full.request.operands.toList op reason :=
    fun hrefused => hkept (.inl ⟨op, hop, hrefused⟩)
  cases step with
  | reset mnemonic => rfl
  | reg name =>
    have hid : (pruned.encoder.lexicon.register engine name).value
        = (full.encoder.lexicon.register engine name).value := congrFun h.names name
    simp only [Session.step, hid, hrequest]
    exact Request.push_withoutMisuse hsize (hpush rfl)
  | regId id | imm value =>
    simp only [Session.step, update, hrequest]
    exact Request.push_withoutMisuse hsize (hpush rfl)
  | mem width expr =>
    simp only [Session.step, update, hrequest]
    exact Request.pushMemory_withoutMisuse hsize (hpush rfl) _
  | memText width text =>
    simp only [Session.step, h.reader]
    cases hread : full.encoder.reader text with
    | ok expr =>
      simp only [update, hrequest]
      refine Request.pushMemory_withoutMisuse hsize (hpush ?_) _
      simp only [pushed?, hread, Option.mem_def]
    | error error => exact hrequest
  | _ =>
    simp only [Session.step, update, hrequest]
    rfl

theorem act (hkept : ¬ full.Declines action) :
    Shadows (full.act action).session (pruned.act action).session := by
  refine ⟨?_, ?_, ?_, act_packed h.packed action⟩
  · cases action with
    | request mnemonic => rfl
    | step step => exact h.request_step hkept
    | _ => exact h.request
  · cases action with
    | step step =>
      exact (pruned.step_reader step).trans (h.reader.trans (full.step_reader step).symm)
    | encode call =>
      obtain ⟨-, -, hpruned⟩ := pruned.encoder.encode_settings pruned.request
      obtain ⟨-, -, hfull⟩ := full.encoder.encode_settings full.request
      exact hpruned.trans (h.reader.trans hfull.symm)
    | setReader reader => rfl
    | _ => exact h.reader
  · rw [registerIds_act, registerIds_act]
    exact h.names

theorem run (actions : List Action) :
    Shadows (full.run actions) (pruned.run (full.accepted actions)) := by
  -- Whether an action is declined is decided in the full run, which takes every step.
  induction actions generalizing full pruned with
  | nil => exact h
  | cons action actions ih =>
    rw [Session.run, List.foldl_cons, accepted]
    by_cases hdeclined : full.Declines action
    · rw [if_pos hdeclined]
      exact ih (h.declines hdeclined)
    · rw [if_neg hdeclined, Session.run, List.foldl_cons]
      exact ih (h.act hdeclined)

end Shadows

/-- **Refused steps leave no trace.** From a new request on, with any encoder and any reader of
addresses, a run without the actions that were declined ends in the same request as the whole run,
but that it keeps no misuse. -/
theorem run_accepted_request (encoder : Encoder engine) (mnemonic : String)
    (actions : List Action) :
    let start : Session engine := ⟨encoder, .new mnemonic⟩
    (start.run (start.accepted actions)).request
      = { (start.run actions).request with misuse := none } := by
  intro start
  have hstart : Shadows start start := ⟨rfl, rfl, rfl, OperandSlots.packed_empty⟩
  exact (hstart.run actions).request

end Session

end MachineCode
