import MachineCode.Proofs.Request.Rejection
import MachineCode.Proofs.Results
import MachineCode.Proofs.Session.Teams
import MachineCode.X86.Engine

/-!
# What the engine is handed

An encode call has two ends. A request with a fault that shows without the engine is turned away,
and nothing of the engine enters into that but register names in the record of the failure. Any
other request is handed over, as one instruction that holds its operands in order.
-/

namespace MachineCode

namespace Encoder

variable {engine : Engine} {enc : Encoder engine} {req : Request} {failure : EncodeFailure}

theorem encode_of_rejectedFor (enc : Encoder engine) (hreq : req.operands.Packed)
    (h : req.RejectedFor failure) : enc.encode req = enc.fail req [] failure := by
  rw [encode, (Request.rejection?_eq_some_iff hreq).mpr h]

/-! ### Events -/

theorem filterMap_handed?_register (lex : Lexicon) (name : String) :
    (lex.register engine name).events.filterMap Event.handed? = [] := by
  simp only [Lexicon.register]
  split <;> rfl

theorem filterMap_handed?_cls (lex : Lexicon) (name : String) :
    (lex.cls engine name).events.filterMap Event.handed? = [] := by
  simp only [Lexicon.cls]
  split <;> rfl

theorem filterMap_handed?_reference (lex : Lexicon) (ref : RegisterRef) :
    (lex.reference engine ref).events.filterMap Event.handed? = [] := by
  cases ref with
  | name name => exact filterMap_handed?_register lex name
  | _ => rfl

/-- Nothing is handed over while names are looked up. -/
theorem filterMap_handed?_resolve (enc : Encoder engine) (req : Request) :
    (enc.resolve req).events.filterMap Event.handed? = [] := by
  simp only [resolve]
  rw [List.filterMap_append, filterMap_handed?_cls, List.nil_append]
  split
  · simp only [resolveAddress]
    rw [List.filterMap_append, filterMap_handed?_reference, filterMap_handed?_reference,
      List.append_nil]
  · rfl

theorem handed_callEngine (enc : Encoder engine) (req : Request) (events : List Event)
    (inst : Instruction) :
    (enc.callEngine req events inst).handed
      = events.filterMap Event.handed? ++ [engine.prepare inst] := by
  rw [callEngine]
  generalize engine.emit (engine.prepare inst) enc.buffer = emitted
  obtain ⟨_ | count, buffer⟩ := emitted
  · simp [Outcome.handed, fail, Event.handed?]
  · simp [Outcome.handed, Event.handed?]

/-! ### Encode calls -/

theorem exists_resolve_value (enc : Encoder engine) (hreq : req.operands.Packed) :
    ∃ inst, (enc.resolve req).value = some inst := by
  simp only [resolve, Option.map_eq_some_iff]
  obtain ⟨requested, hrequested, -⟩ := mapM_resolveOperand _ hreq.not_empty
  exact ⟨_, requested, hrequested, rfl⟩

/-- A request that is not turned away is one instruction, which decides what is answered. -/
theorem encode_of_not_rejectedFor (enc : Encoder engine) (hreq : req.operands.Packed)
    (h : ∀ failure, ¬ req.RejectedFor failure) :
    ∃ inst, (enc.resolve req).value = some inst
      ∧ (enc.encode req).handed = [engine.prepare inst]
      ∧ (enc.encode req).result = engine.answer inst enc.buffer := by
  obtain ⟨inst, hinst⟩ := enc.exists_resolve_value hreq
  refine ⟨inst, hinst, ?_⟩
  rw [encode, Request.rejection?_eq_none hreq h]
  simp only [hinst]
  rw [handed_callEngine, filterMap_handed?_resolve, callEngine_result]
  exact ⟨rfl, rfl⟩

theorem isLocal_ofFault (fault : EngineFault) : (EncodeFailure.ofFault fault).isLocal = false := by
  cases fault <;> rfl

theorem isLocal_of_answer {inst : Instruction} {buffer : Vector UInt8 bufferSize}
    (h : engine.answer inst buffer = .error failure) : failure.isLocal = false := by
  rw [Engine.answer] at h
  split at h
  · cases h
    exact isLocal_ofFault _
  · cases h

/-- **Rejection without the engine.** An encode call on a request that steps have built, with any
encoder in any state, is rejected locally in the three cases of `Request.RejectedFor` and no other.
It then hands nothing over, keeps the remembered names, and comes out alike whatever the tables of
the engine and its functions are. Any other encode call hands over exactly one instruction, and if
it fails, not locally. -/
theorem encode_rejected_iff (enc builder : Encoder engine) (mnemonic : String)
    (actions : List Action) :
    let req := ((⟨builder, .new mnemonic⟩ : Session engine).run actions).request
    let outcome := enc.encode req
    (∀ failure, (outcome.result = .error failure ∧ failure.isLocal) ↔ req.RejectedFor failure)
      ∧ (∀ failure, req.RejectedFor failure →
        outcome.handed = [] ∧ outcome.encoder.lexicon = enc.lexicon
          ∧ ∀ other : Engine, (enc.over other).encode req =
            { result := .error failure
              encoder := { enc.over other with outputSize := 0, lastError := some failure }
              events := [.encodeFailed (req.text other) failure] })
      ∧ ((∀ failure, ¬ req.RejectedFor failure) →
        ∃ inst, outcome.handed = [engine.prepare inst]
          ∧ outcome.result = engine.answer inst enc.buffer
          ∧ ∀ failure, outcome.result = .error failure → failure.isLocal = false) := by
  intro req outcome
  have hreq : req.operands.Packed := Session.run_packed builder mnemonic actions
  have hkept (h : ∀ failure, ¬ req.RejectedFor failure) :
      ∃ inst, outcome.handed = [engine.prepare inst]
        ∧ outcome.result = engine.answer inst enc.buffer
        ∧ ∀ failure, outcome.result = .error failure → failure.isLocal = false := by
    obtain ⟨inst, -, hhanded, hresult⟩ := enc.encode_of_not_rejectedFor hreq h
    refine ⟨inst, hhanded, hresult, fun failure hfailure => ?_⟩
    exact isLocal_of_answer (hresult.symm.trans hfailure)
  refine ⟨fun failure => ⟨?_, ?_⟩, ?_, hkept⟩
  · rintro ⟨hfailure, hlocal⟩
    by_cases hrejected : ∃ other, req.RejectedFor other
    · obtain ⟨other, hother⟩ := hrejected
      have hresult : outcome.result = .error other := by
        rw [show outcome = enc.fail req [] other from enc.encode_of_rejectedFor hreq hother, fail]
      cases hfailure.symm.trans hresult
      exact hother
    · obtain ⟨-, -, -, hremote⟩ := hkept (not_exists.mp hrejected)
      rw [hremote failure hfailure] at hlocal
      cases hlocal
  · intro h
    have houtcome : outcome = enc.fail req [] failure := enc.encode_of_rejectedFor hreq h
    rw [houtcome]
    exact ⟨rfl, Request.rejection?_isLocal ((Request.rejection?_eq_some_iff hreq).mpr h)⟩
  · intro failure h
    have houtcome : outcome = enc.fail req [] failure := enc.encode_of_rejectedFor hreq h
    refine ⟨?_, ?_, fun other => ?_⟩
    · rw [houtcome]
      rfl
    · rw [houtcome]
      rfl
    · exact (enc.over other).encode_of_rejectedFor hreq h

end Encoder

/-! ### The instruction -/

section StandsFor

variable {engine : Engine} {policy : DispPolicy} {req : Request} {op : Operand}

theorem DispPolicy.widthFor_orElse (first second : DispPolicy) (disp : Int32) :
    (first.orElse second).widthFor disp
      = (first.bits?.or second.bits?).getD (leastDispBits disp.toInt) := by
  have hauto : DispPolicy.auto.widthFor disp = leastDispBits disp.toInt := by
    have hzero : disp = 0 ↔ disp.toInt = 0 := by
      rw [← Int32.toInt_inj]
      rfl
    simp only [widthFor, bits?, leastDispBits, hzero]
  cases first with
  | auto =>
    cases second with
    | auto => exact hauto
    | _ => rfl
  | _ => rfl

theorem Request.standsFor_resolvedAddress (engine : Engine) (policy : DispPolicy) (req : Request)
    (width : UInt16) :
    ({ req.resolvedAddress engine policy with width } : ResolvedMemory).StandsFor engine policy
      req where
  base := rfl
  index := rfl
  scale := rfl
  disp := Int32.toInt_toInt64 req.address.disp
  dispBits := DispPolicy.widthFor_orElse req.dispPolicy policy req.address.disp

theorem ResolvedMemory.StandsFor.unique {first second : ResolvedMemory}
    (hfirst : first.StandsFor engine policy req) (hsecond : second.StandsFor engine policy req)
    (hwidth : first.width = second.width) : first = second := by
  have hdisp : first.disp = second.disp :=
    Int64.toInt_inj.mp (hfirst.disp.trans hsecond.disp.symm)
  obtain ⟨base, index, scale, disp, dispBits, width⟩ := first
  obtain ⟨rfl, rfl, rfl, -, rfl⟩ := hfirst
  obtain ⟨hbase, hindex, hscale, -, hbits⟩ := hsecond
  cases hwidth
  cases hdisp
  rw [← hbase, ← hindex, ← hscale, ← hbits]

/-- A branch displacement that is widened by way of 32 bits is as good as one widened at once. -/
theorem Immediate.payload_rel8 (disp : Int8) :
    (Immediate.rel8 disp).payload = disp.toInt32.toInt64.toUInt64 := by
  rw [Int8.toInt64_toInt32]
  rfl

theorem Immediate.payload_rel16 (disp : Int16) :
    (Immediate.rel16 disp).payload = disp.toInt32.toInt64.toUInt64 := by
  rw [Int16.toInt64_toInt32]
  rfl

theorem Int32.eq_of_toInt64_toUInt64 {first second : Int32}
    (h : first.toInt64.toUInt64 = second.toInt64.toUInt64) : first = second := by
  have hwide := congrArg UInt64.toInt64 h
  rw [Int64.toInt64_toUInt64, Int64.toInt64_toUInt64] at hwide
  have hnarrow := congrArg Int64.toInt32 hwide
  rwa [Int32.toInt32_toInt64, Int32.toInt32_toInt64] at hnarrow

namespace ResolvedOperand

variable {asked : ResolvedOperand}

theorem standsFor_resolveOperand
    (h : Encoder.resolveOperand (req.resolvedAddress engine policy) op = some asked) :
    asked.StandsFor engine policy req op := by
  cases op with
  | empty => cases h
  | reg id =>
    cases h
    exact .reg id
  | mem width =>
    cases h
    exact .mem (req.standsFor_resolvedAddress engine policy width) rfl
  | imm value =>
    cases value with
    | uint8 value | uint32 value | uint64 value =>
      cases h
      exact .unsigned rfl rfl rfl rfl
    | int8 value | int16 value | int32 value =>
      cases h
      exact .signed rfl rfl rfl rfl rfl
    | rel8 disp =>
      cases h
      exact .relative rfl rfl (congrArg some (Immediate.payload_rel8 disp)) rfl
    | rel16 disp =>
      cases h
      exact .relative rfl rfl (congrArg some (Immediate.payload_rel16 disp)) rfl
    | rel32 disp =>
      cases h
      exact .relative rfl rfl rfl rfl

theorem StandsFor.resolveOperand_eq (h : asked.StandsFor engine policy req op) :
    Encoder.resolveOperand (req.resolvedAddress engine policy) op = some asked := by
  have hbits {first second : UInt8} (hfirst : op.width? = some first.toUInt16)
      (hsecond : op.width? = some second.toUInt16) : first = second :=
    UInt8.toUInt16_inj.mp (Option.some_inj.mp (hfirst.symm.trans hsecond))
  -- The kind leaves three immediates for each form; payload and width then fix the fields.
  cases h with
  | reg id => rfl
  | mem haddress hwidth =>
    rw [haddress.unique (req.standsFor_resolvedAddress engine policy _) hwidth]
    rfl
  | unsigned hkind hunsigned hvalue hwidth =>
    cases op with
    | imm value =>
      cases value with
      | uint8 value | uint32 value | uint64 value =>
        cases hvalue
        cases hbits hwidth rfl
        rfl
      | _ =>
        cases hkind
        cases hunsigned
    | _ => cases hkind
  | @signed _ _ number _ hkind hunsigned hrelative hvalue hwidth =>
    cases number
    cases op with
    | imm value =>
      cases value with
      | int8 value | int16 value | int32 value =>
        cases hvalue
        cases hbits hwidth rfl
        rfl
      | uint8 value | uint32 value | uint64 value =>
        cases hkind
        cases hunsigned
      | rel8 disp | rel16 disp | rel32 disp =>
        cases hkind
        cases hrelative
    | _ => cases hkind
  | relative hkind hrelative hvalue hwidth =>
    cases op with
    | imm value =>
      cases value with
      | rel8 disp =>
        rw [Operand.payload?, Immediate.payload_rel8] at hvalue
        cases Int32.eq_of_toInt64_toUInt64 (Option.some_inj.mp hvalue)
        cases hbits hwidth rfl
        rfl
      | rel16 disp =>
        rw [Operand.payload?, Immediate.payload_rel16] at hvalue
        cases Int32.eq_of_toInt64_toUInt64 (Option.some_inj.mp hvalue)
        cases hbits hwidth rfl
        rfl
      | rel32 disp =>
        cases Int32.eq_of_toInt64_toUInt64 (Option.some_inj.mp hvalue)
        cases hbits hwidth rfl
        rfl
      | _ =>
        cases hkind
        cases hrelative
    | _ => cases hkind

theorem standsFor_iff : asked.StandsFor engine policy req op ↔
    Encoder.resolveOperand (req.resolvedAddress engine policy) op = some asked :=
  ⟨StandsFor.resolveOperand_eq, standsFor_resolveOperand⟩

end ResolvedOperand

theorem Instruction.standsFor_iff {mode : Mode} {inst : Instruction} (hreq : req.operands.Packed) :
    inst.StandsFor engine mode policy req ↔ req.instruction? engine mode policy = some inst := by
  have hsize := OperandSlots.length_toList hreq.size_le
  -- An instruction carries its first operands only, so the count has to come first.
  have hcarried (hcount : inst.operandCount = req.operands.size) :
      inst.operands = inst.requested := by
    apply List.take_of_length_le
    change inst.operandCount ≤ operandLimit
    rw [hcount]
    exact hreq.size_le
  rw [Request.instruction?_eq_some_iff, mapM_eq_some_iff_forall₂]
  simp only [← ResolvedOperand.standsFor_iff]
  constructor
  · rintro ⟨hmode, hcls, hbits, hcount, hoperands⟩
    rw [hcarried hcount] at hoperands
    exact ⟨hmode, hcls, hbits, hoperands⟩
  · rintro ⟨hmode, hcls, hbits, hoperands⟩
    have hcount : inst.operandCount = req.operands.size := hoperands.length_eq.symm.trans hsize
    refine ⟨hmode, hcls, hbits, hcount, ?_⟩
    rw [hcarried hcount]
    exact hoperands

end StandsFor

/-- **What is handed over stands for the request.** Take an engine that prepares nothing, two
encoders that ran among clones of their own, and the request of the second, which the first does not
reject. The encode call hands over one instruction, and it is the one that stands for the request
under the mode and the displacement policy of the encoder, whatever names are remembered. -/
theorem Encoder.handed_iff_standsFor {engine : Engine}
    (hprepare : ∀ inst, engine.prepare inst = inst) {first second : List TeamAction}
    {encoding building : Session engine}
    (hencoding : encoding ∈ ((Team.new engine).run first).members)
    (hbuilding : building ∈ ((Team.new engine).run second).members)
    (hkept : ∀ failure, ¬ building.request.RejectedFor failure) :
    let enc := encoding.encoder
    let req := building.request
    (∃ inst, (enc.encode req).handed = [inst]
        ∧ (enc.encode req).result = engine.answer inst enc.buffer)
      ∧ ∀ inst, (enc.encode req).handed = [inst]
        ↔ inst.StandsFor engine enc.mode enc.dispPolicy req := by
  intro enc req
  have hlex := Team.faithful_run engine first encoding hencoding
  have hreq := Team.packed_run engine second building hbuilding
  obtain ⟨inst, hinst, hhanded, hresult⟩ := enc.encode_of_not_rejectedFor hreq hkept
  rw [resolve_value hlex] at hinst
  rw [hprepare] at hhanded
  refine ⟨⟨inst, hhanded, hresult⟩, fun other => ?_⟩
  rw [Instruction.standsFor_iff hreq, hinst, hhanded]
  simp

/-- MOV EAX, [RCX+RDX*4-4] reaches the engine from an encoder that has not seen these names, with
the field width that this encoder fixes. -/
theorem Encoder.handed_movIndexed :
    let first : List TeamAction := [.act 0 (.setDispPolicy .bits32)]
    let second : List TeamAction :=
      [.act 0 (.request "mov"), .act 0 (.step (.reg "EAX")),
        .act 0 (.step (.memText 32 "RCX+rdx*4-4"))]
    let inst : Instruction :=
      { mode := .mode64
        cls := ⟨9⟩
        operandBits := 32
        requested := [.reg ⟨17⟩, .mem ⟨⟨2⟩, ⟨3⟩, 4, -4, 32, 32⟩] }
    ∃ encoding ∈ ((Team.new X86.engine).run first).members,
      ∃ building ∈ ((Team.new X86.engine).run second).members,
        (encoding.encoder.encode building.request).handed = [inst]
          ∧ inst.StandsFor X86.engine encoding.encoder.mode encoding.encoder.dispPolicy
            building.request := by
  intro first second inst
  have hencoding : 0 < ((Team.new X86.engine).run first).members.length := by decide +kernel
  have hbuilding : 0 < ((Team.new X86.engine).run second).members.length := by decide +kernel
  have hrejection : ((Team.new X86.engine).run second).members[0].request.rejection? = none := by
    decide +kernel +revert
  have hhanded : (((Team.new X86.engine).run first).members[0].encoder.encode
      ((Team.new X86.engine).run second).members[0].request).handed = [inst] := by
    decide +kernel +revert
  have hbuilt : ((Team.new X86.engine).run second).members[0]
      ∈ ((Team.new X86.engine).run second).members := List.getElem_mem hbuilding
  refine ⟨_, List.getElem_mem hencoding, _, hbuilt, hhanded, ?_⟩
  refine ((Encoder.handed_iff_standsFor (fun _ => rfl) (List.getElem_mem hencoding) hbuilt ?_).2
    inst).mp hhanded
  intro failure hrejected
  have hsome := (Request.rejection?_eq_some_iff (Team.packed_run _ second _ hbuilt)).mpr hrejected
  cases hrejection.symm.trans hsome

end MachineCode
