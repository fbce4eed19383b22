import MachineCode.Proofs.Address.Descriptors
import MachineCode.Proofs.Request.Addresses
import MachineCode.Proofs.Request.Admission
import MachineCode.Proofs.Results
import MachineCode.Proofs.Session.Runs
import MachineCode.Session.Routes

/-!
# Requests that differ in their address

Two sessions that differ in the address of their requests stay so under every step that does not set
an address: a second memory operand is refused in both. So what an encode call then answers differs
no more than the engine tells the two addresses apart.
-/

namespace MachineCode

namespace Request

variable {req : Request}

theorem hasMemory_push (h : req.operands.hasMemory) (op : Operand) :
    (req.push op).operands.hasMemory := by
  rw [push]
  split
  · rename_i happend
    obtain ⟨operands, hpush, rfl⟩ := append_eq_ok happend
    obtain ⟨width, hmem⟩ := OperandSlots.hasMemory_iff.mp h
    refine OperandSlots.hasMemory_iff.mpr ⟨width, ?_⟩
    rw [(OperandSlots.push_eq_ok hpush).2.2]
    exact List.mem_append_left _ hmem
  · exact h

theorem hasMemory_push_memory {width : UInt16} {appended : Request}
    (h : req.append (.mem width) = .ok appended) : (req.push (.mem width)).operands.hasMemory := by
  obtain ⟨operands, hpush, rfl⟩ := append_eq_ok h
  rw [push, h]
  refine OperandSlots.hasMemory_iff.mpr ⟨width, ?_⟩
  rw [(OperandSlots.push_eq_ok hpush).2.2]
  exact List.mem_append_right _ List.mem_cons_self

theorem misuse_push_of_append {op : Operand} {reason : Misuse} (h : req.append op = .error reason) :
    (req.push op).misuse ≠ none := by
  rw [push, h]
  exact Option.some_ne_none _

theorem pushMemory_of_hasMemory (h : req.operands.hasMemory) (width : UInt16) (address : Address) :
    req.pushMemory width address = req.latch .duplicateMemory := by
  have happend : req.append (.mem width) = .error .duplicateMemory := by
    rw [append, h]
    rfl
  rw [pushMemory, happend]

theorem misuse_push_ne_none (h : req.misuse ≠ none) (op : Operand) :
    (req.push op).misuse ≠ none := by
  obtain ⟨reason, hreason⟩ := Option.ne_none_iff_exists'.mp h
  rw [misuse_push hreason op]
  exact Option.some_ne_none reason

/-! ### Requests -/

/-- Two requests differ in the address, if at all: either both have a memory operand, one at each of
the two addresses, or both keep a misuse. -/
inductive DifferInAddress (first second : Address) : Request → Request → Prop where
  | stored {req : Request} (hmemory : req.operands.hasMemory) :
      DifferInAddress first second (req.withAddress first) (req.withAddress second)
  | misused {req : Request} {left right : Address} (hmisuse : req.misuse ≠ none) :
      DifferInAddress first second (req.withAddress left) (req.withAddress right)

namespace DifferInAddress

variable {first second : Address} {left right : Request}

theorem push (h : DifferInAddress first second left right) (op : Operand) :
    DifferInAddress first second (left.push op) (right.push op) := by
  cases h with
  | stored hmemory =>
    rw [push_withAddress, push_withAddress]
    exact .stored (hasMemory_push hmemory op)
  | misused hmisuse =>
    rw [push_withAddress, push_withAddress]
    exact .misused (misuse_push_ne_none hmisuse op)

theorem pushMemory (h : DifferInAddress first second left right) (width : UInt16)
    (address : Address) :
    DifferInAddress first second (left.pushMemory width address)
      (right.pushMemory width address) := by
  cases h with
  | @stored req hmemory =>
    -- Each has a memory operand already, so neither takes this one.
    have hrefused (kept : Address) : (req.withAddress kept).pushMemory width address
        = (req.latch .duplicateMemory).withAddress kept := by
      have hkept : (req.withAddress kept).operands.hasMemory := hmemory
      exact pushMemory_of_hasMemory hkept width address
    rw [hrefused, hrefused]
    exact .stored hmemory
  | misused hmisuse =>
    rw [pushMemory_eq, pushMemory_eq, push_withAddress, push_withAddress]
    exact .misused (misuse_push_ne_none hmisuse _)

theorem setSize (h : DifferInAddress first second left right) (hint : SizeHint) :
    DifferInAddress first second (left.setSize hint) (right.setSize hint) := by
  cases h with
  | @stored req hmemory => exact @stored first second (req.setSize hint) hmemory
  | @misused req _ _ hmisuse => exact @misused first second (req.setSize hint) _ _ hmisuse

theorem setDispPolicy (h : DifferInAddress first second left right) (policy : DispPolicy) :
    DifferInAddress first second (left.setDispPolicy policy) (right.setDispPolicy policy) := by
  cases h with
  | @stored req hmemory => exact @stored first second (req.setDispPolicy policy) hmemory
  | @misused req _ _ hmisuse => exact @misused first second (req.setDispPolicy policy) _ _ hmisuse

end DifferInAddress

/-! ### The instruction at another address -/

theorem mapM_resolveOperand_eq (memory : ResolvedMemory) (ops : List Operand) :
    ops.mapM (Encoder.resolveOperand memory)
      = (ops.mapM (Encoder.resolveOperand .nowhere)).map
          (List.map (ResolvedOperand.relocate memory)) := by
  have hop (op : Operand) : Encoder.resolveOperand memory op
      = (Encoder.resolveOperand .nowhere op).map (ResolvedOperand.relocate memory) := by
    cases op with
    | imm value => cases value <;> rfl
    | _ => rfl
  induction ops with
  | nil => rfl
  | cons op ops ih =>
    rw [List.mapM_cons, List.mapM_cons, hop op, ih]
    cases Encoder.resolveOperand .nowhere op with
    | none => rfl
    | some asked => cases ops.mapM (Encoder.resolveOperand .nowhere) <;> rfl

theorem length_of_mapM_resolveOperand {memory : ResolvedMemory} {ops : List Operand}
    {requested : List ResolvedOperand}
    (h : ops.mapM (Encoder.resolveOperand memory) = some requested) :
    requested.length = ops.length
      ∧ ∀ width, .mem width ∈ ops → ∃ found, .mem found ∈ requested := by
  obtain ⟨hlength, hresolved, -⟩ := exists_mem_of_mapM_eq_some h
  refine ⟨hlength, fun width hwidth => ?_⟩
  obtain ⟨asked, hasked, hop⟩ := hresolved (.mem width) hwidth
  cases hop
  exact ⟨_, hasked⟩

/-- The instruction of a request is one shape, placed at its address. -/
theorem instruction?_eq_map_relocate (engine : Engine) (mode : Mode) (policy : DispPolicy)
    (req : Request) :
    req.instruction? engine mode policy
      = ((req.operands.toList.mapM (Encoder.resolveOperand .nowhere)).map fun requested =>
          { mode
            cls := engine.classes.find req.mnemonic
            operandBits := req.size.effectiveBits
            requested }).map (Instruction.relocate (req.resolvedAddress engine policy)) := by
  rw [instruction?, mapM_resolveOperand_eq, Option.map_map, Option.map_map]
  rfl

/-- With a memory operand it can be placed at any address. -/
theorem exists_instruction_relocate (engine : Engine) (mode : Mode) (policy : DispPolicy)
    (h : req.operands.hasMemory) :
    (∀ address, (req.withAddress address).instruction? engine mode policy = none)
      ∨ ∃ inst : Instruction, inst.requested.length ≤ operandLimit
        ∧ (∃ found, .mem found ∈ inst.requested)
        ∧ ∀ address, (req.withAddress address).instruction? engine mode policy
          = some (inst.relocate (address.resolved engine (req.dispPolicy.orElse policy))) := by
  cases hrequested : req.operands.toList.mapM (Encoder.resolveOperand .nowhere) with
  | none =>
    left
    intro address
    rw [instruction?_eq_map_relocate]
    simp only [withAddress, hrequested]
    rfl
  | some requested =>
    right
    obtain ⟨hlength, hmem⟩ := length_of_mapM_resolveOperand hrequested
    obtain ⟨width, hwidth⟩ := OperandSlots.hasMemory_iff.mp h
    refine ⟨⟨mode, engine.classes.find req.mnemonic, req.size.effectiveBits, requested⟩, ?_,
      hmem width hwidth, fun address => ?_⟩
    · exact hlength.trans_le req.operands.length_toList_le
    · rw [instruction?_eq_map_relocate]
      simp only [withAddress, hrequested]
      rfl

/-- An address with a valid scale is no reason to reject a request. -/
theorem rejection?_withAddress {address : Address}
    (h : req.misuse = none → address.hasValidScale) :
    (req.withAddress address).rejection? =
      if bufferSize < req.mnemonic.utf8ByteSize then
        some (.mnemonicTooLong (UInt64.ofNat req.mnemonic.utf8ByteSize) (UInt64.ofNat bufferSize))
      else
        (req.misuse.map .misused).or
          (if operandLimit < req.operands.size then
            some (.operandCount (UInt64.ofNat req.operands.size))
          else
            none) := by
  rw [rejection?]
  cases hmisuse : req.misuse with
  | some misuse =>
    simp only [withAddress, hmisuse]
    rfl
  | none =>
    simp only [withAddress, hmisuse, h hmisuse, Bool.not_true, Bool.and_false, if_false,
      Bool.false_eq_true]
    rfl

end Request

/-! ### Answers -/

/-- Encode calls on two requests that differ in their address fail for the same reason before the
engine is asked, or ask it for one instruction at the two addresses. -/
theorem Encoder.encode_result_cases {engine : Engine} {enc : Encoder engine}
    (hlex : enc.lexicon.Faithful engine) {first second : Address} {left right : Request}
    (h : Request.DifferInAddress first second left right) (hfirst : first.hasValidScale)
    (hsecond : second.hasValidScale) :
    (∃ failure, (enc.encode left).result = .error failure
        ∧ (enc.encode right).result = .error failure)
      ∨ ∃ (inst : Instruction) (policy : DispPolicy), inst.requested.length ≤ operandLimit
        ∧ (∃ found, .mem found ∈ inst.requested)
        ∧ (enc.encode left).result
          = engine.answer (inst.relocate (first.resolved engine policy)) enc.buffer
        ∧ (enc.encode right).result
          = engine.answer (inst.relocate (second.resolved engine policy)) enc.buffer := by
  rw [encode_result hlex, encode_result hlex]
  cases h with
  | @stored req hmemory =>
    rw [Request.rejection?_withAddress fun _ => hfirst,
      Request.rejection?_withAddress fun _ => hsecond]
    generalize (if bufferSize < req.mnemonic.utf8ByteSize then _ else _) = rejection
    cases rejection with
    | some failure => exact .inl ⟨failure, rfl, rfl⟩
    | none =>
      rcases req.exists_instruction_relocate engine enc.mode enc.dispPolicy hmemory with
        hnone | ⟨inst, hcount, hmem, hinst⟩
      · rw [hnone, hnone]
        exact .inl ⟨.unrepresentable, rfl, rfl⟩
      · rw [hinst, hinst]
        exact .inr ⟨inst, _, hcount, hmem, rfl, rfl⟩
  | @misused req _ _ hmisuse =>
    rw [Request.rejection?_withAddress fun hnone => absurd hnone hmisuse,
      Request.rejection?_withAddress fun hnone => absurd hnone hmisuse]
    obtain ⟨misuse, hmisuse⟩ := Option.ne_none_iff_exists'.mp hmisuse
    rw [hmisuse]
    by_cases hlong : bufferSize < req.mnemonic.utf8ByteSize
    · rw [if_pos hlong]
      exact .inl ⟨_, rfl, rfl⟩
    · rw [if_neg hlong]
      exact .inl ⟨_, rfl, rfl⟩

namespace Session

variable {engine : Engine} {first second : Address} {left right : Session engine}

/-- Two sessions with one encoder differ in the address of their requests, if at all. -/
structure DifferInAddress (first second : Address) (left right : Session engine) : Prop where
  encoder : right.encoder = left.encoder
  request : Request.DifferInAddress first second left.request right.request

theorem DifferInAddress.step (h : DifferInAddress first second left right) {step : Step}
    (hstep : step.setsAddress = false) :
    DifferInAddress first second (left.step step).session (right.step step).session := by
  obtain ⟨leftEncoder, leftRequest⟩ := left
  obtain ⟨rightEncoder, rightRequest⟩ := right
  obtain ⟨hencoder, hrequest⟩ := h
  cases hencoder
  cases step with
  | reg name => exact ⟨rfl, hrequest.push _⟩
  | regId id => exact ⟨rfl, hrequest.push _⟩
  | imm value => exact ⟨rfl, hrequest.push _⟩
  | mem width expr => exact ⟨rfl, hrequest.pushMemory width _⟩
  | memText width text =>
    simp only [Session.step]
    split
    · exact ⟨rfl, hrequest.pushMemory width _⟩
    · exact ⟨rfl, hrequest⟩
  | size hint => exact ⟨rfl, hrequest.setSize hint⟩
  | dispPolicy policy => exact ⟨rfl, hrequest.setDispPolicy policy⟩
  | _ => cases hstep

theorem DifferInAddress.follow (h : DifferInAddress first second left right) {steps : List Step}
    (hsteps : ∀ step ∈ steps, step.setsAddress = false) :
    DifferInAddress first second (left.follow steps) (right.follow steps) := by
  induction steps generalizing left right with
  | nil => exact h
  | cons step steps ih =>
    rw [List.forall_mem_cons] at hsteps
    exact ih (h.step hsteps.1) hsteps.2

section Routes

variable {session : Session engine} {expr : AddressExpr}

/-- The two routes to the address of a plain descriptor come to the same request, but for the scale
that the text does not show. -/
theorem differInAddress_routes (hreader : session.encoder.reader = AddressExpr.parse)
    (hplain : expr.IsPlain) (width : UInt16) :
    DifferInAddress (.ofExpr expr.normal) (.ofExpr expr)
      (session.follow (Step.written width expr)) (session.follow (Step.filled width expr)) := by
  have hwritten : session.follow (Step.written width expr)
      = ⟨session.encoder, session.request.pushMemory width (.ofExpr expr.normal)⟩ := by
    change (session.step (.memText width expr.render)).session = _
    simp only [step, hreader, hplain.parse_render]
    rfl
  have hfilled : session.follow (Step.filled width expr)
      = ⟨session.encoder, (session.request.push (.mem width)).withAddress (.ofExpr expr)⟩ := by
    have hempty : (session.step (.memText width "")).session
        = ⟨session.encoder, session.request.pushMemory width (.ofExpr {})⟩ := by
      simp only [step, hreader]
      rfl
    have hparts (req : Request) : (⟨session.encoder, req⟩ : Session engine).follow
        [.base expr.base, .index expr.index, .scale expr.scale, .disp expr.disp]
          = ⟨session.encoder, req.withAddress (.ofExpr expr)⟩ := rfl
    change ((session.step (.memText width "")).session.follow _) = _
    rw [hempty, hparts, Request.pushMemory_eq]
    rfl
  rw [hwritten, hfilled, Request.pushMemory_eq]
  refine ⟨rfl, ?_⟩
  cases happend : session.request.append (.mem width) with
  | ok appended => exact .stored (Request.hasMemory_push_memory happend)
  | error reason => exact .misused (Request.misuse_push_of_append happend)

end Routes

theorem follow_lexicon {session : Session engine}
    (hlex : session.encoder.lexicon.Faithful engine) (steps : List Step) :
    (session.follow steps).encoder.lexicon.Faithful engine := by
  induction steps generalizing session with
  | nil => exact hlex
  | cons step steps ih => exact ih (act_lexicon hlex (.step step))

end Session

end MachineCode
