import MachineCode.Proofs.Request.Rejection
import MachineCode.Proofs.Session.UnknownNames
import MachineCode.Proofs.X86.Answers
import MachineCode.X86.Outcome

/-!
# Refusals

What a request brings to the engine rules out most of what the engine could object to. Its scale is
valid, its displacement has 32 bits, its branches reach their targets, and its operands fit an
instruction. So an encode call only fails for a handful of reasons, and a displacement is only
refused where the caller has fixed a field of one byte for it.
-/

namespace MachineCode

/-! ### Displacements of a request -/

/-- A policy gives every displacement a field that holds it, unless the field is fixed to one
byte. -/
theorem DispPolicy.dispIn_widthFor (policy : DispPolicy) (disp : Int32) :
    X86.DispIn disp.toInt64 (policy.widthFor disp)
      ∨ policy = .bits8 ∧ ¬(-128 ≤ disp.toInt ∧ disp.toInt ≤ 127) := by
  have hbyte (h : -128 ≤ disp.toInt ∧ disp.toInt ≤ 127) : X86.DispIn disp.toInt64 8 := by
    rw [← Int32.toInt_toInt64] at h
    exact .byte h.1 h.2
  cases policy with
  | auto =>
    left
    rw [widthFor]
    simp only [bits?]
    by_cases hzero : disp = 0
    · rw [if_pos hzero, hzero]
      exact .none rfl
    rw [if_neg hzero]
    by_cases hrange : -128 ≤ disp.toInt ∧ disp.toInt ≤ 127
    · rw [if_pos hrange]
      exact hbyte hrange
    · rw [if_neg hrange]
      exact .full
  | bits8 =>
    by_cases hrange : -128 ≤ disp.toInt ∧ disp.toInt ≤ 127
    · exact .inl (hbyte hrange)
    · exact .inr ⟨rfl, hrange⟩
  | bits32 => exact .inl .full

namespace X86

/-! ### Operands of a request -/

theorem branchFits_of_bounds {disp : Int32} {bits : Nat} (hlow : -fieldRange (bits - 1) ≤ disp.toInt)
    (hhigh : disp.toInt < fieldRange (bits - 1)) : Setting.branchFits disp bits := by
  rw [Setting.branchFits, Bool.and_eq_true, decide_eq_true_iff, decide_eq_true_iff]
  exact ⟨hlow, hhigh⟩

/-- The field of a branch is as wide as its displacement. -/
theorem reaches_of_resolveOperand {memory : ResolvedMemory} {op : MachineCode.Operand}
    {disp : Int32} {bits : UInt8}
    (h : Encoder.resolveOperand memory op = some (.relative disp bits)) : Reaches disp bits := by
  cases op with
  | imm value =>
    cases value with
    | rel8 value =>
      cases h
      refine ⟨by decide, branchFits_of_bounds ?_ ?_⟩
      · rw [Int8.toInt_toInt32]
        exact value.le_toInt
      · rw [Int8.toInt_toInt32]
        exact value.toInt_lt
    | rel16 value =>
      cases h
      refine ⟨by decide, branchFits_of_bounds ?_ ?_⟩
      · rw [Int16.toInt_toInt32]
        exact value.le_toInt
      · rw [Int16.toInt_toInt32]
        exact value.toInt_lt
    | rel32 value =>
      cases h
      exact ⟨by decide, branchFits_of_bounds disp.le_toInt disp.toInt_lt⟩
    | _ => cases h
  | _ => cases h

theorem memory_of_resolveOperand {memory found : ResolvedMemory} {op : MachineCode.Operand}
    (h : Encoder.resolveOperand memory op = some (.mem found)) :
    ∃ width, op = .mem width ∧ found = { memory with width } := by
  cases op with
  | mem width =>
    cases h
    exact ⟨width, rfl, rfl⟩
  | imm value => cases value <;> cases h
  | _ => cases h

theorem Memory.dispField_eq_error {mem : Memory} {base : Register} {code : RefusalCode}
    (h : mem.dispField base = .error code) :
    code = .badDisplacement ∧ ¬DispIn mem.disp mem.dispBits := by
  constructor
  · rw [dispField] at h
    split at h
    · split at h
      · exact (Except.error.inj h).symm
      · split at h <;> cases h
    · split at h
      · cases h
      · exact (Except.error.inj h).symm
    · cases h
    · exact (Except.error.inj h).symm
  · intro hfield
    obtain ⟨field, hok⟩ := Memory.exists_dispField_iff.mpr hfield
    rw [hok] at h
    cases h

/-- What refuses an address in ModR/M: the instruction pointer in 32-bit mode, the scale, or a
displacement without a field. -/
theorem Memory.modRm_eq_error {mem : Memory} {mode : Mode} {reg : Fin 8} {code : RefusalCode}
    (hscale : mem.scale ∈ [0, 1, 2, 4, 8]) (hdisp : mem.dispFits)
    (h : mem.modRm mode reg = .error code) :
    code = .invalidMode ∨ code = .badDisplacement
      ∧ ∃ base, mem.base = some base ∧ base.isPointer = false ∧ ¬DispIn mem.disp mem.dispBits := by
  obtain ⟨scale, hfield⟩ := Memory.exists_scaleField_iff.mpr hscale
  rw [modRm, hfield, hdisp] at h
  cases hbase : mem.base with
  | none =>
    rw [hbase] at h
    cases h
  | some base =>
    rw [hbase] at h
    cases hpointer : base.isPointer with
    | true =>
      simp only [Bool.not_true, Bool.false_eq_true, if_false, hpointer, if_true] at h
      split at h
      · cases h
        exact .inl rfl
      · cases h
    | false =>
      simp only [Bool.not_true, Bool.false_eq_true, if_false, hpointer] at h
      rcases bind_eq_error.mp h with hfield | ⟨field, -, hok⟩
      · obtain ⟨hcode, hnone⟩ := Memory.dispField_eq_error hfield
        exact .inr ⟨hcode, base, rfl, hpointer, hnone⟩
      · cases hok

/-! ### Instructions of a request -/

/-- The codes with which the engine refuses the instruction of a request. -/
def requestRefusals : List RefusalCode := .badClass :: .highByteWithRex :: checkRefusals

theorem hasMemory_of_mem_requested {engine : Engine} {mode : Mode} {policy : DispPolicy}
    {req : Request} {inst : Instruction} (hinst : req.instruction? engine mode policy = some inst)
    {memory : ResolvedMemory} (hmem : .mem memory ∈ inst.requested) :
    req.operands.hasMemory
      ∧ ∃ width, memory = { req.resolvedAddress engine policy with width } := by
  obtain ⟨-, -, -, hrequested⟩ := Request.instruction?_eq_some_iff.mp hinst
  obtain ⟨-, -, hresolved⟩ := exists_mem_of_mapM_eq_some hrequested
  obtain ⟨op, hop, hresolve⟩ := hresolved _ hmem
  obtain ⟨width, rfl, rfl⟩ := memory_of_resolveOperand hresolve
  exact ⟨OperandSlots.hasMemory_iff.mpr ⟨width, hop⟩, width, rfl⟩

theorem reaches_of_mem_ops {mode : Mode} {policy : DispPolicy}
    {req : Request} {inst : Instruction} (hinst : req.instruction? engine mode policy = some inst)
    {ops : List Operand} (hops : inst.requested.mapM readOperand = .ok ops) {disp : Int32}
    {bits : UInt8} (hmem : .rel disp bits ∈ ops) : Reaches disp bits := by
  obtain ⟨asked, hasked, hread⟩ := (exists_mem_of_mapM_eq_ok hops).2 _ hmem
  obtain ⟨-, -, -, hrequested⟩ := Request.instruction?_eq_some_iff.mp hinst
  obtain ⟨-, -, hresolved⟩ := exists_mem_of_mapM_eq_some hrequested
  obtain ⟨op, -, hresolve⟩ := hresolved _ hasked
  cases readOperand_eq_ok_iff.mp hread with
  | relative => exact reaches_of_resolveOperand hresolve

theorem mem_scales_of_rejection? {req : Request} (hkept : req.rejection? = none)
    (hmemory : req.operands.hasMemory) : req.address.scale ∈ [0, 1, 2, 4, 8] := by
  rw [Request.rejection?] at hkept
  split at hkept
  · cases hkept
  split at hkept
  · cases hkept
  split at hkept
  · cases hkept
  rw [hmemory, Bool.true_and] at hkept
  split at hkept
  · cases hkept
  · rename_i hscale
    have hvalid : req.address.hasValidScale := by simpa using hscale
    exact List.contains_iff_mem.mp hvalid

theorem dispFits_toInt64 {mem : Memory} {disp : Int32} (h : mem.disp = disp.toInt64) :
    mem.dispFits := by
  rw [Memory.dispFits_iff, h, Int32.toInt_toInt64]
  exact ⟨disp.le_toInt, disp.toInt_lt⟩

/-- The engine refuses the instruction of a request for one of the codes, or because a displacement
does not fit the byte that it has. -/
theorem layoutOf_request_eq_error {mode : Mode} {policy : DispPolicy} {req : Request}
    {inst : Instruction} {code : RefusalCode} (hkept : req.rejection? = none)
    (hinst : req.instruction? engine mode policy = some inst) (h : layoutOf inst = .error code) :
    code ∈ requestRefusals ∨ code = .badDisplacement ∧ OverflowsByte policy req := by
  rcases layoutOf_eq_error (Request.length_requested_le hinst) h with
    hcheck | ⟨ops, hops, ⟨mem, reg, hmem, hmodRm⟩ | ⟨-, disp, bits, hmem, hfar⟩⟩
  · exact .inl hcheck
  · obtain ⟨asked, hasked, hread⟩ := (exists_mem_of_mapM_eq_ok hops).2 _ hmem
    cases readOperand_eq_ok_iff.mp hread with
    | mem haddress =>
      obtain ⟨hmemory, width, rfl⟩ := hasMemory_of_mem_requested hinst hasked
      obtain ⟨-, -, rfl⟩ := readAddress_eq_ok_iff.mp haddress
      rcases Memory.modRm_eq_error (mem_scales_of_rejection? hkept hmemory)
        (dispFits_toInt64 rfl) hmodRm with rfl | ⟨rfl, base, hbase, hpointer, hnone⟩
      · exact .inl (by decide)
      · rcases (req.dispPolicy.orElse policy).dispIn_widthFor req.address.disp with
          hin | ⟨hpolicy, hdisp⟩
        · exact absurd hin hnone
        · exact .inr ⟨rfl, hmemory, hpolicy, hdisp, base, hbase,
            Register.isPointer_eq_false_iff.mp hpointer⟩
  · exact absurd (reaches_of_mem_ops hinst hops hmem) hfar

theorem not_mem_of_mem_requestRefusals {code : RefusalCode}
    (h : code ∈ .badDisplacement :: requestRefusals) :
    code ∉ [.generalError, .bufferTooShort, .badScale] ∧ ∀ number, code ≠ .other number := by
  constructor
  · intro hmem
    simp only [List.mem_cons, List.not_mem_nil, or_false] at hmem
    rcases hmem with rfl | rfl | rfl <;> exact absurd h (by decide)
  · rintro number rfl
    simp [requestRefusals, checkRefusals] at h

/-! ### Encode calls -/

/-- **Some failures never happen.** No request that steps can build is refused for its number of
operands, for its scale, for a buffer that is too short or for a reason without a name. A displacement
is only refused where its field is fixed to one byte, it does not fit, and it stands behind a base
register. -/
theorem encode_result_failure {first second : List TeamAction} {encoding building : Session engine}
    (hencoding : encoding ∈ ((Team.new engine).run first).members)
    (hbuilding : building ∈ ((Team.new engine).run second).members) {failure : EncodeFailure}
    (hresult : (encoding.encoder.encode building.request).result = .error failure) :
    (∀ count, failure ≠ .operandCount count) ∧ failure ≠ .unrepresentable
      ∧ (∀ code, failure = .refused ⟨code⟩ →
        code ∉ [.generalError, .bufferTooShort, .badScale] ∧ ∀ number, code ≠ .other number)
      ∧ (failure = .refused ⟨.badDisplacement⟩ →
        OverflowsByte encoding.encoder.dispPolicy building.request) := by
  have hpacked := Team.packed_run engine second building hbuilding
  have hends := encode_ends (Team.faithful_run engine first encoding hencoding) building.request
  rw [hresult] at hends
  cases hends with
  | rejected h =>
    have hlocal := Request.rejection?_isLocal h
    refine ⟨?_, ?_, ?_, ?_⟩
    · rintro count rfl
      exact Request.rejection?_ne_operandCount hpacked count h
    · rintro rfl
      cases hlocal
    · rintro code rfl
      cases hlocal
    · rintro rfl
      cases hlocal
  | unrepresentable hkept h =>
    obtain ⟨inst, hinst, -⟩ :=
      Request.exists_instruction encoding.encoder.mode encoding.encoder.dispPolicy hpacked
    rw [hinst] at h
    cases h
  | @refused inst code hkept hinst h =>
    have hcause := layoutOf_request_eq_error hkept hinst h
    refine ⟨nofun, nofun, ?_, ?_⟩
    · intro code' heq
      cases heq
      apply not_mem_of_mem_requestRefusals
      rcases hcause with hcheck | ⟨rfl, -⟩
      · exact List.mem_cons_of_mem _ hcheck
      · exact List.mem_cons_self
    · intro heq
      cases heq
      rcases hcause with hcheck | ⟨-, hoverflows⟩
      · exact absurd hcheck (by decide)
      · exact hoverflows

/-- MOV EAX, [RCX+300] with a displacement of one byte. -/
theorem encode_result_failure_farByte :
    let actions : List TeamAction :=
      [.act 0 (.request "MOV"), .act 0 (.step (.reg "EAX")), .act 0 (.step (.memText 32 "RCX+300")),
        .act 0 (.step (.dispPolicy .bits8))]
    ∃ session ∈ ((Team.new engine).run actions).members,
      (session.encoder.encode session.request).result = .error (.refused ⟨.badDisplacement⟩)
        ∧ OverflowsByte session.encoder.dispPolicy session.request := by
  intro actions
  have hmember : 0 < ((Team.new engine).run actions).members.length := by decide +kernel
  let session := ((Team.new engine).run actions).members[0]
  have hresult : (session.encoder.encode session.request).result
      = .error (.refused ⟨.badDisplacement⟩) := by decide +kernel +revert
  have hmem : session ∈ ((Team.new engine).run actions).members := List.getElem_mem hmember
  exact ⟨session, hmem, hresult, (encode_result_failure hmem hmem hresult).2.2.2 rfl⟩

end X86

end MachineCode
