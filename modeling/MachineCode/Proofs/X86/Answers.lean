import MachineCode.Proofs.Session.Teams
import MachineCode.Proofs.X86.AluOperands
import MachineCode.Proofs.X86.Shapes
import MachineCode.Proofs.X86.UnusedScales

/-!
# How an encode call ends

Between a request and its bytes stand the checks that need no engine, the names that are looked up
and the layout of one instruction. Each end of an encode call is told by the one of these that
decided it. The buffer is never too short, since no instruction is longer than it.
-/

namespace MachineCode

/-! ### The instruction of a request -/

theorem Request.length_requested_le {engine : Engine} {mode : Mode} {policy : DispPolicy}
    {req : Request} {inst : Instruction} (h : req.instruction? engine mode policy = some inst) :
    inst.requested.length ≤ operandLimit := by
  obtain ⟨-, -, -, hrequested⟩ := Request.instruction?_eq_some_iff.mp h
  rw [(exists_mem_of_mapM_eq_some hrequested).1]
  exact req.operands.length_toList_le

namespace X86

/-! ### Answers of the engine -/

section Layouts

variable {inst : Instruction} {layout : Layout} {code : RefusalCode}

theorem encode_eq_of_layoutOf (hcount : inst.requested.length ≤ operandLimit)
    (h : layoutOf inst = .ok layout) : encode inst = .ok layout.bytes := by
  have hcarried : ¬operandLimit < inst.operandCount := Nat.not_lt.mpr hcount
  rw [encode, if_neg hcarried, h]

/-- Every layout fits the buffer. -/
theorem answer_of_layoutOf (hcount : inst.requested.length ≤ operandLimit)
    (h : layoutOf inst = .ok layout) (buffer : Vector UInt8 bufferSize) :
    engine.answer inst buffer = .ok layout.bytes := by
  have hlength : layout.bytes.length ≤ bufferSize := by
    have hbound := (length_of_encode (encode_eq_of_layoutOf hcount h)).2
    exact Nat.le_trans hbound (by decide)
  rw [answer_eq_answerOf hcount, h, answerOf, if_pos hlength]

theorem answer_of_layoutOf_error (hcount : inst.requested.length ≤ operandLimit)
    (h : layoutOf inst = .error code) (buffer : Vector UInt8 bufferSize) :
    engine.answer inst buffer = .error (.refused ⟨code⟩) := by
  rw [answer_eq_answerOf hcount, h, answerOf]

/-- What refuses an instruction is its class, its size, one of the checks of its operands, the
address of a memory operand, or a branch that does not reach its target. -/
theorem layoutOf_eq_error (hcount : inst.requested.length ≤ operandLimit)
    (h : layoutOf inst = .error code) :
    code ∈ .badClass :: .highByteWithRex :: checkRefusals
      ∨ ∃ ops, inst.requested.mapM readOperand = .ok ops
        ∧ ((∃ mem reg, .mem mem ∈ ops ∧ mem.modRm inst.mode reg = .error code)
          ∨ code = .badDisplacement ∧ ∃ disp bits, .rel disp bits ∈ ops ∧ ¬Reaches disp bits) := by
  have hcarried : inst.operands = inst.requested := List.take_of_length_le hcount
  rw [layoutOf, hcarried] at h
  split at h
  · cases h
    exact .inl List.mem_cons_self
  rename_i name operation hclass
  rcases bind_eq_error.mp h with hread | ⟨ops, hops, h⟩
  · obtain ⟨asked, -, hasked⟩ := exists_of_mapM_eq_error hread
    rw [readOperand_eq_error hasked]
    exact .inl (by decide)
  rcases bind_eq_error.mp h with hsetting | ⟨setting, hsetting, h⟩
  · exact .inl (List.mem_cons_of_mem _ (List.mem_cons_of_mem _ (ofBits_eq_error hsetting)))
  rw [← Setting.mode_of_ofBits hsetting]
  rcases (setting.layout_comesTo operation ops).cause h with hcheck | hcause
  · exact .inl (List.mem_cons_of_mem _ hcheck)
  · exact .inr ⟨ops, hops, hcause⟩

end Layouts

/-! ### Encode calls -/

/-- How an encode call ends, and what decided it. -/
inductive Ends (enc : Encoder engine) (req : Request) :
    Except EncodeFailure (List UInt8) → Prop where
  | rejected {failure : EncodeFailure} (h : req.rejection? = some failure) :
      Ends enc req (.error failure)
  | unrepresentable (hkept : req.rejection? = none)
      (h : req.instruction? engine enc.mode enc.dispPolicy = none) :
      Ends enc req (.error .unrepresentable)
  | refused {inst : Instruction} {code : RefusalCode} (hkept : req.rejection? = none)
      (hinst : req.instruction? engine enc.mode enc.dispPolicy = some inst)
      (h : layoutOf inst = .error code) : Ends enc req (.error (.refused ⟨code⟩))
  | written {inst : Instruction} {layout : Layout} (hkept : req.rejection? = none)
      (hinst : req.instruction? engine enc.mode enc.dispPolicy = some inst)
      (h : layoutOf inst = .ok layout) : Ends enc req (.ok layout.bytes)

section Encoders

variable {enc : Encoder engine} (hlex : enc.lexicon.Faithful engine) {req : Request}
include hlex

theorem encode_ends (req : Request) : Ends enc req (enc.encode req).result := by
  rw [Encoder.encode_result hlex]
  cases hkept : req.rejection? with
  | some failure => exact .rejected hkept
  | none =>
    cases hinst : req.instruction? engine enc.mode enc.dispPolicy with
    | none => exact .unrepresentable hkept hinst
    | some inst =>
      have hcount := Request.length_requested_le hinst
      cases hlayout : layoutOf inst with
      | error code =>
        simp only [answer_of_layoutOf_error hcount hlayout]
        exact .refused hkept hinst hlayout
      | ok layout =>
        simp only [answer_of_layoutOf hcount hlayout]
        exact .written hkept hinst hlayout

theorem encode_result_of_layoutOf {inst : Instruction} {layout : Layout}
    (hkept : req.rejection? = none)
    (hinst : req.instruction? engine enc.mode enc.dispPolicy = some inst)
    (h : layoutOf inst = .ok layout) : (enc.encode req).result = .ok layout.bytes := by
  rw [Encoder.encode_result hlex, hkept, hinst]
  exact answer_of_layoutOf (Request.length_requested_le hinst) h enc.buffer

end Encoders

end X86

end MachineCode
