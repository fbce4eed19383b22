import MachineCode.Proofs.Session.Handover
import MachineCode.Proofs.Session.Pushes
import MachineCode.Session.Logging

/-!
# The log of an encode call

An encode call that writes its log as it goes has the result and the encoder of one without a log,
whatever the level, and writes the lines of its events that the level shows. What these events are
depends on the request, on the names that are remembered, and on the answer of the engine.
-/

namespace MachineCode

/-- The computation has the value at every level, and its log is that of the events. -/
def Logging.Logs {α : Type} (run : Logging α) (value : α) (events : List Event) : Prop :=
  ∀ level, run level = (value, logLines level events)

/-! ### What a log shows -/

theorem logLines_trace (events : List Event) : logLines .trace events = events.map Event.line := by
  have hall : events.filter (fun event => event.level.rank ≤ LogLevel.trace.rank) = events := by
    rw [List.filter_eq_self]
    intro event _
    cases event <;> rfl
  rw [logLines, hall]

theorem logLines_debug (events : List Event) :
    logLines .debug events = (events.filter fun event => event.level == .debug).map Event.line := by
  have hsame (event : Event) :
      decide (event.level.rank ≤ LogLevel.debug.rank) = (event.level == .debug) := by
    cases event <;> rfl
  simp only [logLines, hsame]

theorem logLines_off (events : List Event) : logLines .off events = [] := by
  have hnone : events.filter (fun event => event.level.rank ≤ LogLevel.off.rank) = [] := by
    rw [List.filter_eq_nil_iff]
    intro event _
    cases event <;> exact of_decide_eq_false rfl
  rw [logLines, hnone, List.map_nil]

/-! ### Logs of computations -/

namespace Logging.Logs

variable {α β : Type} {run : Logging α} {next : α → Logging β} {value : α} {result : β}
  {events more : List Event}

theorem pure (value : α) : Logs (Pure.pure value) value [] := by
  intro level
  rfl

theorem record (event : Event) : Logs (Logging.record event) () [event] := by
  intro level
  by_cases hshown : event.level.rank ≤ level.rank <;> simp [Logging.record, logLines, hshown]

theorem bind (hrun : Logs run value events) (hnext : Logs (next value) result more) :
    Logs (run >>= next) result (events ++ more) := by
  intro level
  change ((next (run level).1 level).1, (run level).2 ++ (next (run level).1 level).2) = _
  rw [hrun level, hnext level, logLines, logLines, logLines, List.filter_append, List.map_append]

theorem bind_pure (hrun : Logs run value events) (hnext : next value = Pure.pure result) :
    Logs (run >>= next) result events := by
  have hlast : Logs (next value) result [] := by
    rw [hnext]
    exact pure result
  have h := hrun.bind hlast
  rwa [List.append_nil] at h

end Logging.Logs

open Logging (Logs)

/-! ### Look-ups -/

namespace KnownNames

variable {Id : Type}

theorem logs_ask (cache : KnownNames Id) (isValid : Id → Bool) (table : String → Id)
    (miss : String → Id → Event) (name : String) :
    let answer := cache.ask isValid table name
    Logs (cache.askLogging isValid table miss name) (answer.id, answer.cache)
      (if answer.missed then [miss name answer.id] else []) := by
  rw [askLogging]
  cases hfound : cache.find? name with
  | some id =>
    rw [ask_of_known hfound]
    exact .pure _
  | none =>
    rw [ask_of_unknown hfound]
    exact (Logs.record _).bind_pure rfl

/-- A question makes its own name known, if that is valid. -/
theorem isSome_find?_ask (cache : KnownNames Id) (isValid : Id → Bool) (table : String → Id)
    (name other : String) :
    ((cache.ask isValid table name).cache.find? other).isSome
      = ((cache.find? other).isSome || (name == other && isValid (table other))) := by
  cases hfound : cache.find? name with
  | some id =>
    rw [ask_of_known hfound]
    by_cases heq : name = other
    · rw [← heq, hfound]
      rfl
    · rw [beq_false_of_ne heq, Bool.false_and, Bool.or_false]
  | none =>
    rw [ask_of_unknown hfound]
    by_cases heq : name = other
    · subst heq
      cases isValid (table name) <;> simp [hfound, find?_insert]
    · cases isValid (table name) <;> simp [heq, Ne.symm heq, find?_insert]

end KnownNames

namespace Lexicon

variable {engine : Engine}

theorem logs_register (lex : Lexicon) (name : String) :
    let found := lex.register engine name
    Logs (lex.registerLogging engine name) (found.value, found.lexicon) found.events :=
  (lex.registers.logs_ask _ _ _ name).bind_pure rfl

theorem logs_cls (lex : Lexicon) (name : String) :
    let found := lex.cls engine name
    Logs (lex.clsLogging engine name) (found.value, found.lexicon) found.events :=
  (lex.classes.logs_ask _ _ _ name).bind_pure rfl

theorem logs_reference (lex : Lexicon) (ref : RegisterRef) :
    let found := lex.reference engine ref
    Logs (lex.referenceLogging engine ref) (found.value, found.lexicon) found.events := by
  cases ref with
  | none => exact .pure _
  | name name => exact lex.logs_register name
  | id id => exact .pure _

theorem events_cls (lex : Lexicon) (name : String) :
    (lex.cls engine name).events =
      if (lex.classes.find? name).isSome then [] else
        [.classMiss name (engine.classes.find name)] := by
  rw [cls]
  cases hfound : lex.classes.find? name with
  | some id => rw [KnownNames.ask_of_known hfound]; rfl
  | none => rw [KnownNames.ask_of_unknown hfound]; rfl

theorem events_reference (lex : Lexicon) (ref : RegisterRef) :
    (lex.reference engine ref).events =
      ref.missEvents engine fun name => (lex.registers.find? name).isSome := by
  cases ref with
  | name given =>
    rw [reference, register, RegisterRef.missEvents]
    cases hfound : lex.registers.find? given with
    | some id => rw [KnownNames.ask_of_known hfound]; rfl
    | none => rw [KnownNames.ask_of_unknown hfound]; rfl
  | _ => rfl

theorem isSome_find?_reference (lex : Lexicon) (ref : RegisterRef) (other : String) :
    ((lex.reference engine ref).lexicon.registers.find? other).isSome =
      ((lex.registers.find? other).isSome
        || (ref == .name other && (engine.registers.find other).isValid)) := by
  cases ref with
  | name given =>
    have hbeq : (RegisterRef.name given == .name other) = (given == other) := by
      rw [Bool.eq_iff_iff, beq_iff_eq, beq_iff_eq, RegisterRef.name.injEq]
    rw [hbeq]
    exact lex.registers.isSome_find?_ask RegisterId.isValid engine.registers.find given other
  | _ => exact (Bool.or_false _).symm

end Lexicon

namespace Encoder

variable {engine : Engine} {enc : Encoder engine} {req : Request} {ops : List Operand}

theorem logs_address (enc : Encoder engine) (req : Request) (lex : Lexicon) :
    let found := enc.resolveAddress lex req
    Logs (enc.addressLogging req lex) (found.value, found.lexicon) found.events := by
  apply (lex.logs_reference req.address.base).bind
  exact (Lexicon.logs_reference _ req.address.index).bind_pure rfl

theorem logs_operand_of_memory (enc : Encoder engine) (req : Request) (lex : Lexicon)
    (width : UInt16) :
    let found := enc.resolveAddress lex req
    Logs (enc.operandLogging req lex (.mem width))
      (resolveOperand found.value (.mem width), found.lexicon) found.events := by
  have hkind : (Operand.mem width).kind = .mem := rfl
  rw [operandLogging, if_pos hkind]
  exact (enc.logs_address req lex).bind_pure rfl

theorem logs_operand_of_no_memory (enc : Encoder engine) (req : Request) (lex : Lexicon)
    (memory : ResolvedMemory) {op : Operand} (h : op.kind ≠ .mem) :
    Logs (enc.operandLogging req lex op) (resolveOperand memory op, lex) [] := by
  rw [operandLogging, if_neg h]
  apply (Logs.pure _).bind_pure
  cases op with
  | mem width => exact absurd rfl h
  | _ => rfl

/-- The operands in front have a form, so that the rest comes to be asked for. -/
theorem logs_operands_cons {lex next last : Lexicon} {memory : ResolvedMemory} {op : Operand}
    {events more : List Event}
    (hop : Logs (enc.operandLogging req lex op) (resolveOperand memory op, next) events)
    (hform : op ≠ .empty)
    (hrest : Logs (enc.operandsLogging req next ops) (ops.mapM (resolveOperand memory), last)
      more) :
    Logs (enc.operandsLogging req lex (op :: ops)) ((op :: ops).mapM (resolveOperand memory), last)
      (events ++ more) := by
  obtain ⟨asked, hasked⟩ := exists_resolveOperand memory hform
  rw [hasked] at hop
  rw [operandsLogging, List.mapM_cons, hasked]
  apply hop.bind
  apply hrest.bind_pure
  cases ops.mapM (resolveOperand memory) <;> rfl

/-- Operands of which none is memory look nothing up, so the address given to them is free. -/
theorem logs_operands_of_no_memory (enc : Encoder engine) (req : Request) (lex : Lexicon)
    (memory : ResolvedMemory) (hform : .empty ∉ ops)
    (h : ops.any (fun op => op.kind == .mem) = false) :
    Logs (enc.operandsLogging req lex ops) (ops.mapM (resolveOperand memory), lex) [] := by
  induction ops with
  | nil => exact .pure _
  | cons op rest ih =>
    rw [List.any_cons, Bool.or_eq_false_iff, beq_eq_false_iff_ne] at h
    rw [List.mem_cons, not_or] at hform
    exact logs_operands_cons (enc.logs_operand_of_no_memory req lex memory h.1) (Ne.symm hform.1)
      (ih hform.2 h.2)

/-- With one memory operand the address is looked up once, wherever the operand stands. -/
theorem logs_operands_of_memory (enc : Encoder engine) (req : Request) (lex : Lexicon)
    (hform : .empty ∉ ops) (hcount : ops.countP (fun op => op.kind == .mem) = 1) :
    let found := enc.resolveAddress lex req
    Logs (enc.operandsLogging req lex ops) (ops.mapM (resolveOperand found.value), found.lexicon)
      found.events := by
  intro found
  induction ops with
  | nil => cases hcount
  | cons op rest ih =>
    rw [List.mem_cons, not_or] at hform
    by_cases hop : op.kind = .mem
    · obtain ⟨width, rfl⟩ := Operand.kind_eq_mem_iff.mp hop
      have hnone : rest.any (fun op => op.kind == .mem) = false := by
        rw [List.countP_cons_of_pos rfl, Nat.add_eq_right, List.countP_eq_zero] at hcount
        rw [List.any_eq_false]
        exact hcount
      have h := logs_operands_cons (enc.logs_operand_of_memory req lex width) (Ne.symm hform.1)
        (enc.logs_operands_of_no_memory req found.lexicon found.value hform.2 hnone)
      rwa [List.append_nil] at h
    · have hrest : rest.countP (fun op => op.kind == .mem) = 1 := by
        rwa [List.countP_cons_of_neg (by simpa using hop)] at hcount
      have h := logs_operands_cons (enc.logs_operand_of_no_memory req lex found.value hop)
        (Ne.symm hform.1) (ih hform.2 hrest)
      rwa [List.nil_append] at h

/-! ### What is looked up -/

theorem resolve_of_memory (h : req.operands.hasMemory = true) :
    enc.resolve req =
      let cls := enc.lexicon.cls engine req.mnemonic
      let found := enc.resolveAddress cls.lexicon req
      { value := (req.operands.toList.mapM (resolveOperand found.value)).map fun requested =>
          { mode := enc.mode, cls := cls.value, operandBits := req.size.effectiveBits, requested }
        lexicon := found.lexicon
        events := cls.events ++ found.events } := by
  simp only [resolve, h, if_true]

theorem resolve_of_no_memory (h : req.operands.hasMemory = false) :
    enc.resolve req =
      let cls := enc.lexicon.cls engine req.mnemonic
      let memory := ⟨.invalid, .invalid, 0, 0, 0, 0⟩
      { value := (req.operands.toList.mapM (resolveOperand memory)).map fun requested =>
          { mode := enc.mode, cls := cls.value, operandBits := req.size.effectiveBits, requested }
        lexicon := cls.lexicon
        events := cls.events } := by
  simp only [resolve, h, Bool.false_eq_true, if_false, List.append_nil]

/-- The look-ups report the names that are not known when their turn comes. -/
theorem resolve_events (enc : Encoder engine) (req : Request) :
    (enc.resolve req).events = enc.missEvents req := by
  rw [missEvents]
  cases hmemory : req.operands.hasMemory with
  | true =>
    rw [resolve_of_memory hmemory]
    simp only [resolveAddress, Lexicon.events_cls, Lexicon.events_reference,
      Lexicon.isSome_find?_reference, if_true]
    -- The look-up of the mnemonic keeps the registers.
    rfl
  | false =>
    rw [resolve_of_no_memory hmemory]
    simp only [Lexicon.events_cls, Bool.false_eq_true, if_false, List.append_nil]

/-- A name that both the base and the index have is reported once if the engine knows it, and else
twice. -/
theorem missEvents_of_same_name {name : String} (hmemory : req.operands.hasMemory = true)
    (hbase : req.address.base = .name name) (hindex : req.address.index = .name name)
    (hcls : (enc.lexicon.classes.find? req.mnemonic).isSome)
    (hname : enc.lexicon.registers.find? name = none) :
    enc.missEvents req =
      List.replicate (if (engine.registers.find name).isValid then 1 else 2)
        (.registerMiss name (engine.registers.find name)) := by
  cases hvalid : (engine.registers.find name).isValid <;>
    simp [missEvents, RegisterRef.missEvents, hmemory, hbase, hindex, hcls, hname, hvalid]

/-! ### Encode calls -/

theorem callEngine_events (enc : Encoder engine) (req : Request) (events : List Event)
    (inst : Instruction) :
    let outcome := enc.callEngine req events inst
    outcome.events
      = events ++ .engineCall inst (engine.prepare inst) :: outcome.failureEvents req := by
  intro outcome
  simp only [outcome, callEngine, Outcome.failureEvents]
  generalize engine.emit (engine.prepare inst) enc.buffer = emitted
  obtain ⟨fault | count, buffer⟩ := emitted
  · simp only [fail, List.append_assoc, List.singleton_append]
  · rfl

theorem callEngine_buffer (enc : Encoder engine) (req : Request) (events : List Event)
    (inst : Instruction) :
    (enc.callEngine req events inst).encoder.buffer
      = (engine.emit (engine.prepare inst) enc.buffer).2 := by
  rw [callEngine]
  generalize engine.emit (engine.prepare inst) enc.buffer = emitted
  obtain ⟨_ | count, buffer⟩ := emitted <;> rfl

theorem records_encode (enc : Encoder engine) (hreq : req.operands.Packed) :
    enc.Records req (enc.encode req).events := by
  by_cases hrejected : ∃ failure, req.RejectedFor failure
  · obtain ⟨failure, hfailure⟩ := hrejected
    rw [enc.encode_of_rejectedFor hreq hfailure]
    exact .rejected hfailure
  · have hkept := not_exists.mp hrejected
    obtain ⟨inst, hinst⟩ := enc.exists_resolve_value hreq
    have houtcome : enc.encode req =
        { enc with lexicon := (enc.resolve req).lexicon }.callEngine req
          (enc.missEvents req) inst := by
      rw [encode, Request.rejection?_eq_none hreq hkept, ← enc.resolve_events req]
      simp only [hinst]
    have hevents : (enc.encode req).events = enc.missEvents req
        ++ .engineCall inst (engine.prepare inst) :: (enc.encode req).failureEvents req := by
      rw [houtcome]
      exact callEngine_events _ req _ inst
    rw [hevents]
    apply Records.called hkept
    · rw [houtcome]
      exact callEngine_result _ req _ inst
    · rw [houtcome]
      exact callEngine_buffer _ req _ inst

section Calls

variable (enc : Encoder engine) (hreq : req.operands.Packed)
  (hcount : req.operands.toList.countP (fun op => op.kind == .mem) ≤ 1)
include hreq hcount

theorem exists_logs_operands :
    let cls := enc.lexicon.cls engine req.mnemonic
    ∃ requested events,
      Logs (enc.operandsLogging req cls.lexicon req.operands.toList)
          (some requested, (enc.resolve req).lexicon) events
        ∧ (enc.resolve req).events = cls.events ++ events
        ∧ (enc.resolve req).value =
          some { mode := enc.mode, cls := cls.value, operandBits := req.size.effectiveBits,
                 requested } := by
  have hform := hreq.not_empty
  cases hmemory : req.operands.hasMemory with
  | true =>
    have hone : req.operands.toList.countP (fun op => op.kind == .mem) = 1 :=
      Nat.le_antisymm hcount (List.countP_pos_iff.mpr (List.any_eq_true.mp hmemory))
    have hlogs := enc.logs_operands_of_memory req (enc.lexicon.cls engine req.mnemonic).lexicon
      hform hone
    rw [resolve_of_memory hmemory]
    dsimp only at hlogs ⊢
    obtain ⟨requested, hrequested, -⟩ := mapM_resolveOperand _ hform
    rw [hrequested] at hlogs ⊢
    exact ⟨requested, _, hlogs, rfl, rfl⟩
  | false =>
    have hlogs := enc.logs_operands_of_no_memory req (enc.lexicon.cls engine req.mnemonic).lexicon
      ⟨.invalid, .invalid, 0, 0, 0, 0⟩ hform hmemory
    rw [resolve_of_no_memory hmemory]
    dsimp only
    obtain ⟨requested, hrequested, -⟩ := mapM_resolveOperand _ hform
    rw [hrequested] at hlogs ⊢
    exact ⟨requested, [], hlogs, (List.append_nil _).symm, rfl⟩

/-- What is handed to the engine has been looked up before. -/
theorem logs_fill {inst : Instruction} (hkept : req.rejection? = none)
    (hinst : (enc.resolve req).value = some inst) :
    let emitted := engine.emit (engine.prepare inst) enc.buffer
    Logs (enc.fillLogging req)
      ((match emitted.1 with
        | .error fault => .error (.ofFault fault)
        | .ok count => .ok (min count bufferSize)),
        { enc with lexicon := (enc.resolve req).lexicon, buffer := emitted.2 })
      ((enc.resolve req).events ++ [.engineCall inst (engine.prepare inst)]) := by
  intro emitted
  obtain ⟨requested, events, hoperands, hevents, hvalue⟩ := enc.exists_logs_operands hreq hcount
  rw [hinst] at hvalue
  cases hvalue
  rw [fillLogging, hkept, hevents, List.append_assoc]
  apply (enc.lexicon.logs_cls req.mnemonic).bind
  apply hoperands.bind
  apply (Logs.record _).bind_pure
  dsimp only [emitted]
  generalize engine.emit (engine.prepare _) enc.buffer = emitted
  obtain ⟨_ | count, buffer⟩ := emitted <;> rfl

/-- A call that logs as it goes does what one does that collects its events. -/
theorem logs_encode :
    let outcome := enc.encode req
    Logs (enc.encodeLogging req) (outcome.result, outcome.encoder) outcome.events := by
  intro outcome
  cases hrejected : req.rejection? with
  | some failure =>
    have hfill : Logs (enc.fillLogging req) (.error failure, enc) [] := by
      rw [fillLogging, hrejected]
      exact .pure _
    have houtcome : outcome = enc.fail req [] failure := by
      simp only [outcome, encode, hrejected]
    rw [houtcome]
    exact hfill.bind ((Logs.record _).bind_pure rfl)
  | none =>
    obtain ⟨inst, hinst⟩ := enc.exists_resolve_value hreq
    have hfill := enc.logs_fill hreq hcount hrejected hinst
    have houtcome : outcome =
        { enc with lexicon := (enc.resolve req).lexicon }.callEngine req
          (enc.resolve req).events inst := by
      simp only [outcome, encode, hrejected, hinst]
    rw [houtcome, callEngine]
    dsimp only at hfill ⊢
    generalize engine.emit (engine.prepare inst) enc.buffer = emitted at hfill ⊢
    obtain ⟨fault | count, buffer⟩ := emitted
    · exact hfill.bind ((Logs.record _).bind_pure rfl)
    · exact hfill.bind_pure rfl

end Calls

/-- **The log of an encode call.** Take any encoder, and a request that steps have built. At trace
level an encode call that logs as it goes writes one record if the request is turned away: that of
the failure. Else it writes one for each name that is not known when its turn comes (the mnemonic,
and for a memory operand the base and then the index), one that describes the instruction which the
engine is handed to prepare and to emit, and one of the failure if there is one. At debug level it
writes the records of that level, and nothing without a log. The result and the encoder are the same
at every level. -/
theorem encodeLogging_records (enc builder : Encoder engine) (mnemonic : String)
    (actions : List Action) :
    let req := ((⟨builder, .new mnemonic⟩ : Session engine).run actions).request
    let outcome := enc.encode req
    enc.Records req outcome.events
      ∧ (enc.encodeLogging req .trace).2 = outcome.events.map Event.line
      ∧ (enc.encodeLogging req .debug).2 =
        (outcome.events.filter fun event => event.level == .debug).map Event.line
      ∧ (enc.encodeLogging req .off).2 = []
      ∧ ∀ level, (enc.encodeLogging req level).1 = (outcome.result, outcome.encoder) := by
  intro req outcome
  have hreq : req.operands.Packed := Session.run_packed builder mnemonic actions
  have hcount : req.operands.toList.countP (fun op => op.kind == .mem) ≤ 1 :=
    (Session.run_holds (Session.holds_of_begun builder mnemonic) actions).admits.countP_memory_le
  have hlogs := enc.logs_encode hreq hcount
  refine ⟨enc.records_encode hreq, ?_, ?_, ?_, fun level => ?_⟩
  · rw [hlogs, logLines_trace]
  · rw [hlogs, logLines_debug]
  · rw [hlogs, logLines_off]
  · rw [hlogs]

end Encoder

end MachineCode
