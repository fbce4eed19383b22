import MachineCode.Proofs.Session.Lexicon

/-!
# What an encode call answers

The result of an encode call is a function of the request, the settings of the encoder and the
buffer. The names that the encoder remembers do not enter into it, as long as they are faithful to
the tables of the engine.
-/

namespace MachineCode

/-! ### The instruction that a request asks for -/

theorem Request.instruction?_eq_some_iff {engine : Engine} {mode : Mode} {policy : DispPolicy}
    {req : Request} {inst : Instruction} :
    req.instruction? engine mode policy = some inst
      ↔ inst.mode = mode ∧ inst.cls = engine.classes.find req.mnemonic
        ∧ inst.operandBits = req.size.effectiveBits
        ∧ req.operands.toList.mapM (Encoder.resolveOperand (req.resolvedAddress engine policy))
          = some inst.requested := by
  rw [instruction?, Option.map_eq_some_iff]
  constructor
  · rintro ⟨requested, hrequested, rfl⟩
    exact ⟨rfl, rfl, rfl, hrequested⟩
  · rintro ⟨rfl, hcls, hbits, hrequested⟩
    refine ⟨inst.requested, hrequested, ?_⟩
    rw [← hcls, ← hbits]

namespace Encoder

variable {engine : Engine} {enc : Encoder engine}

/-- The address matters to a memory operand only. -/
theorem mapM_resolveOperand_of_no_memory (first second : ResolvedMemory) {ops : List Operand}
    (h : ops.any (fun op => op.kind == .mem) = false) :
    ops.mapM (resolveOperand first) = ops.mapM (resolveOperand second) := by
  induction ops with
  | nil => rfl
  | cons op ops ih =>
    rw [List.any_cons, Bool.or_eq_false_iff] at h
    have hop : resolveOperand first op = resolveOperand second op := by
      cases op with
      | mem width => exact absurd h.1 (by simp [Operand.kind])
      | _ => rfl
    rw [List.mapM_cons, List.mapM_cons, hop, ih h.2]

theorem exists_resolveOperand (memory : ResolvedMemory) {op : Operand} (h : op ≠ .empty) :
    ∃ asked, resolveOperand memory op = some asked := by
  cases op with
  | empty => exact absurd rfl h
  | imm value => cases value <;> exact ⟨_, rfl⟩
  | _ => exact ⟨_, rfl⟩

theorem mapM_resolveOperand (memory : ResolvedMemory) {ops : List Operand}
    (h : .empty ∉ ops) :
    ∃ requested, ops.mapM (resolveOperand memory) = some requested
      ∧ requested.length = ops.length ∧ ∀ id, .reg id ∈ ops → .reg id ∈ requested := by
  induction ops with
  | nil => exact ⟨[], rfl, rfl, by simp⟩
  | cons op ops ih =>
    rw [List.mem_cons, not_or] at h
    obtain ⟨requested, hrest, hlength, hregs⟩ := ih h.2
    obtain ⟨asked, hop⟩ := exists_resolveOperand memory (Ne.symm h.1)
    refine ⟨asked :: requested, ?_, by rw [List.length_cons, List.length_cons, hlength], ?_⟩
    · rw [List.mapM_cons, hop, hrest]
      rfl
    · intro id hid
      rcases List.mem_cons.mp hid with rfl | hmem
      · cases hop
        exact List.mem_cons_self
      · exact List.mem_cons_of_mem asked (hregs id hmem)

theorem resolveAddress_value {lex : Lexicon} (hlex : lex.Faithful engine) (req : Request) :
    (enc.resolveAddress lex req).value = req.resolvedAddress engine enc.dispPolicy := by
  have hbase := hlex.reference_value req.address.base
  have hindex := (hlex.reference_lexicon req.address.base).reference_value req.address.index
  simp only [resolveAddress, hbase, hindex]
  rfl

section Resolve

variable (hlex : enc.lexicon.Faithful engine) (req : Request)
include hlex

theorem resolve_value :
    (enc.resolve req).value = req.instruction? engine enc.mode enc.dispPolicy := by
  have hcls := hlex.cls_value req.mnemonic
  rw [resolve, Request.instruction?]
  cases hmemory : req.operands.hasMemory with
  | true =>
    have haddress : (enc.resolveAddress _ req).value = _ :=
      resolveAddress_value (hlex.cls_lexicon req.mnemonic) req
    simp only [if_true, hcls, haddress]
  | false =>
    rw [mapM_resolveOperand_of_no_memory _ (req.resolvedAddress engine enc.dispPolicy) hmemory]
    simp only [hcls]

theorem resolve_lexicon : (enc.resolve req).lexicon.Faithful engine := by
  have hcls := hlex.cls_lexicon req.mnemonic
  rw [resolve]
  cases req.operands.hasMemory with
  | true => exact (hcls.reference_lexicon req.address.base).reference_lexicon req.address.index
  | false => exact hcls

end Resolve

/-! ### Encode calls -/

theorem callEngine_result (enc : Encoder engine) (req : Request) (events : List Event)
    (inst : Instruction) :
    (enc.callEngine req events inst).result = engine.answer inst enc.buffer := by
  rw [callEngine, Engine.answer]
  generalize engine.emit (engine.prepare inst) enc.buffer = emitted
  obtain ⟨_ | count, buffer⟩ := emitted <;> rfl

theorem callEngine_lexicon (enc : Encoder engine) (req : Request) (events : List Event)
    (inst : Instruction) :
    (enc.callEngine req events inst).encoder.lexicon = enc.lexicon := by
  rw [callEngine]
  generalize engine.emit (engine.prepare inst) enc.buffer = emitted
  obtain ⟨_ | count, buffer⟩ := emitted <;> rfl

theorem encode_result (hlex : enc.lexicon.Faithful engine) (req : Request) :
    (enc.encode req).result =
      match req.rejection?, req.instruction? engine enc.mode enc.dispPolicy with
      | some failure, _ => .error failure
      | none, none => .error .unrepresentable
      | none, some inst => engine.answer inst enc.buffer := by
  rw [encode, ← resolve_value hlex]
  cases req.rejection? with
  | some failure => rfl
  | none =>
    cases hvalue : (enc.resolve req).value with
    | none => simp only [hvalue, fail]
    | some inst => simp only [hvalue, callEngine_result]

/-- An encode call leaves the settings of the encoder as they are. -/
theorem encode_settings (enc : Encoder engine) (req : Request) :
    (enc.encode req).encoder.mode = enc.mode
      ∧ (enc.encode req).encoder.dispPolicy = enc.dispPolicy
      ∧ (enc.encode req).encoder.reader = enc.reader := by
  rw [encode]
  cases req.rejection? with
  | some failure => exact ⟨rfl, rfl, rfl⟩
  | none =>
    cases hvalue : (enc.resolve req).value with
    | none => simp only [hvalue, fail, and_self]
    | some inst =>
      simp only [hvalue, callEngine]
      split <;> exact ⟨rfl, rfl, rfl⟩

theorem encode_lexicon (hlex : enc.lexicon.Faithful engine) (req : Request) :
    (enc.encode req).encoder.lexicon.Faithful engine := by
  rw [encode]
  cases req.rejection? with
  | some failure => exact hlex
  | none =>
    have hresolve := resolve_lexicon hlex req
    cases hvalue : (enc.resolve req).value with
    | none => simpa only [hvalue, fail] using hresolve
    | some inst => simpa only [hvalue, callEngine_lexicon] using hresolve

end Encoder

end MachineCode
