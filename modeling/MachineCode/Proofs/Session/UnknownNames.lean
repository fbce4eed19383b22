import MachineCode.Proofs.Request.Addresses
import MachineCode.Proofs.Session.Runs
import MachineCode.Proofs.X86.Tables

/-!
# Unknown names

A mnemonic or a register operand that the engine does not know is refused. A name in an address is
not: the id of an unknown name is the id that stands for no register, so the request is encoded as
if the name had not been given.
-/

namespace MachineCode

/-! ### Requests without their unknown names -/

theorem RegisterRef.resolved_withoutUnknown (engine : Engine) (ref : RegisterRef) :
    (ref.withoutUnknown engine).resolved engine = ref.resolved engine := by
  cases ref with
  | name given =>
    rw [withoutUnknown]
    split
    · rfl
    · rename_i hunknown
      have hinvalid : engine.registers.find given = .invalid := by
        simpa [RegisterId.isValid] using hunknown
      rw [resolved, resolved, hinvalid]
  | none => rfl
  | id known => rfl

theorem Request.alike_withoutUnknown (engine : Engine) (req : Request) :
    req.Alike engine (req.withoutUnknown engine) :=
  .intro
    { base := RegisterRef.resolved_withoutUnknown engine req.address.base
      index := RegisterRef.resolved_withoutUnknown engine req.address.index
      scale := rfl
      disp := rfl }

theorem Encoder.encode_result_withoutUnknown {engine : Engine} {enc : Encoder engine}
    (hlex : enc.lexicon.Faithful engine) (req : Request) :
    (enc.encode (req.withoutUnknown engine)).result = (enc.encode req).result := by
  have halike := req.alike_withoutUnknown engine
  rw [encode_result hlex, encode_result hlex, halike.rejection?, halike.instruction?]

/-! ### Unknown mnemonics and register operands -/

/-- A packed request asks for an instruction of its class that carries all its register operands. -/
theorem Request.exists_instruction {engine : Engine} (mode : Mode) (policy : DispPolicy)
    {req : Request} (hreq : req.operands.Packed) :
    ∃ inst, req.instruction? engine mode policy = some inst
      ∧ inst.cls = engine.classes.find req.mnemonic ∧ inst.requested.length ≤ operandLimit
      ∧ ∀ id, .reg id ∈ req.operands.toList → .reg id ∈ inst.requested := by
  obtain ⟨requested, hrequested, hlength, hregs⟩ :=
    Encoder.mapM_resolveOperand (req.resolvedAddress engine policy) hreq.not_empty
  rw [instruction?, hrequested]
  refine ⟨_, rfl, rfl, ?_, hregs⟩
  have hsize := hreq.size_le
  rw [hlength, OperandSlots.length_toList hsize]
  exact hsize

namespace X86

theorem answer_of_encode_error {inst : Instruction} {fault : EngineFault}
    (h : encode inst = .error fault) (buffer : Vector UInt8 bufferSize) :
    engine.answer inst buffer = .error (.ofFault fault) := by
  have hemit : engine.emit (engine.prepare inst) buffer = (.error fault, buffer) := by
    change emit inst buffer = _
    rw [emit, h]
  rw [Engine.answer, hemit]

section Encoders

variable {enc : Encoder engine} {req : Request}
  (hlex : enc.lexicon.Faithful engine) (hreq : req.operands.Packed)
  (hkept : req.rejection? = none)
include hlex hreq hkept

theorem encode_result_of_unknown_class (hclass : engine.classes.find req.mnemonic = .invalid) :
    (enc.encode req).result = .error (.refused ⟨.badClass⟩) := by
  obtain ⟨inst, hinst, hcls, hcount, -⟩ := Request.exists_instruction enc.mode enc.dispPolicy hreq
  have hnone : mnemonic? inst.cls = none := by
    rw [hcls, hclass]
    rfl
  rw [Encoder.encode_result hlex, hkept, hinst]
  exact answer_of_encode_error (encode_of_unknown_class hcount hnone) enc.buffer

theorem encode_result_of_unknown_register
    (hclass : engine.classes.find req.mnemonic ≠ .invalid) {id : RegisterId}
    (hmem : .reg id ∈ req.operands.toList) (hid : Register.ofId? id = none) :
    (enc.encode req).result = .error (.refused ⟨.badRegister⟩) := by
  -- The class is looked at first, so a known one is needed to get to the operands.
  obtain ⟨inst, hinst, hcls, hcount, hregs⟩ :=
    Request.exists_instruction enc.mode enc.dispPolicy hreq
  obtain ⟨entry, hentry⟩ := exists_mnemonic_of_find hclass
  rw [← hcls] at hentry
  rw [Encoder.encode_result hlex, hkept, hinst]
  exact answer_of_encode_error (encode_of_unknown_register hcount hentry (hregs id hmem) hid)
    enc.buffer

end Encoders

/-- **What becomes of an unknown name.** In every session an unknown mnemonic or register operand is
refused, after the checks that need no engine. An unknown name in an address is dropped: the request
has the result that it would have without the name. -/
theorem encode_result_of_unknown_name (actions : List Action) :
    let session := (Session.new engine).run actions
    let req := session.request
    let result := (session.encoder.encode req).result
    (∀ failure, req.rejection? = some failure → result = .error failure)
      ∧ (req.rejection? = none → engine.classes.find req.mnemonic = .invalid →
        result = .error (.refused ⟨.badClass⟩))
      ∧ (req.rejection? = none → engine.classes.find req.mnemonic ≠ .invalid →
        (∃ id, .reg id ∈ req.operands.toList ∧ Register.ofId? id = none) →
        result = .error (.refused ⟨.badRegister⟩))
      ∧ result = (session.encoder.encode (req.withoutUnknown engine)).result := by
  intro session req result
  have hlex : session.encoder.lexicon.Faithful engine := Session.run_lexicon engine actions
  have hreq : req.operands.Packed := Session.run_packed {} "" actions
  refine ⟨?_, ?_, ?_, (Encoder.encode_result_withoutUnknown hlex req).symm⟩
  · intro failure hrejected
    change (session.encoder.encode req).result = _
    rw [Encoder.encode_result hlex, hrejected]
  · intro hkept hclass
    exact encode_result_of_unknown_class hlex hreq hkept hclass
  · rintro hkept hclass ⟨id, hmem, hid⟩
    exact encode_result_of_unknown_register hlex hreq hkept hclass hmem hid

/-- MOV EAX, [RQX] is encoded as MOV EAX, [0], although no register is called RQX. -/
theorem exists_unknown_base_encoded :
    ∃ actions : List Action,
      let session := (Session.new engine).run actions
      session.request.operands.hasMemory ∧ session.request.address.base = .name "RQX"
        ∧ engine.registers.find "RQX" = .invalid
        ∧ (session.encoder.encode session.request).result.toOption
          = some [0x8B, 0x04, 0x25, 0, 0, 0, 0] :=
  ⟨[.request "MOV", .step (.reg "EAX"), .step (.memText 32 "RQX")], by decide +kernel⟩

end X86

end MachineCode
