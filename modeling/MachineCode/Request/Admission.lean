import MachineCode.Session.Failure

/-!
Which of the operands pushed onto a request it stores, and which requests are turned away before the
engine is asked. The rule for operands is stated on lists, without the slots of a request.
-/

namespace MachineCode

/-! ### Operands -/

/-- An operand that cannot join the stored ones, with the reason. A second memory operand or
immediate is refused as such, whether or not there is room. -/
inductive Refuses (stored : List Operand) : Operand → Misuse → Prop where
  | memory {width other : UInt16} (h : .mem other ∈ stored) :
      Refuses stored (.mem width) .duplicateMemory
  | immediate {value other : Immediate} (h : .imm other ∈ stored) :
      Refuses stored (.imm value) .duplicateImmediate
  | full {op : Operand} (hfull : operandLimit ≤ stored.length)
      (hmemory : ∀ width other, op = .mem width → .mem other ∉ stored)
      (himmediate : ∀ value other, op = .imm value → .imm other ∉ stored) :
      Refuses stored op (.tooManyOperands 6)

/-- The operands stored out of those pushed, in order, and the reason of the first refusal. -/
inductive Admits : List Operand → List Operand → Option Misuse → Prop where
  | nil : Admits [] [] none
  | store {pushed stored : List Operand} {first : Option Misuse} {op : Operand}
      (h : Admits pushed stored first) (hop : ∀ reason, ¬ Refuses stored op reason) :
      Admits (pushed ++ [op]) (stored ++ [op]) first
  | skip {pushed stored : List Operand} {first : Option Misuse} {op : Operand} {reason : Misuse}
      (h : Admits pushed stored first) (hop : Refuses stored op reason) :
      Admits (pushed ++ [op]) stored (some (first.getD reason))

/-! ### Requests -/

/-- The reason for which a request is turned away before the engine is asked. The scale of an
address matters only to a memory operand that was stored. -/
inductive Request.RejectedFor (req : Request) : EncodeFailure → Prop where
  | mnemonic (hlong : 48 < req.mnemonic.utf8ByteSize) :
      RejectedFor req (.mnemonicTooLong (UInt64.ofNat req.mnemonic.utf8ByteSize) 48)
  | misuse {reason : Misuse} (hname : req.mnemonic.utf8ByteSize ≤ 48)
      (hmisuse : req.misuse = some reason) : RejectedFor req (.misused reason)
  | scale {width : UInt16} (hname : req.mnemonic.utf8ByteSize ≤ 48) (hmisuse : req.misuse = none)
      (hmemory : .mem width ∈ req.operands.toList) (hscale : req.address.scale ∉ [0, 1, 2, 4, 8]) :
      RejectedFor req (.misused (.invalidScale req.address.scale))

/-! ### Running the rule for operands -/

theorem Operand.kind_eq_mem_iff {op : Operand} : op.kind = .mem ↔ ∃ width, op = .mem width := by
  cases op <;> simp [kind]

theorem Operand.isImmediate_kind_iff {op : Operand} :
    op.kind.isImmediate ↔ ∃ value, op = .imm value := by
  cases op <;> simp [kind, OperandKind.isImmediate]

theorem any_kind_mem_iff {ops : List Operand} :
    ops.any (fun op => op.kind == .mem) ↔ ∃ width, .mem width ∈ ops := by
  rw [List.any_eq_true]
  constructor
  · rintro ⟨op, hmem, hkind⟩
    obtain ⟨width, rfl⟩ := Operand.kind_eq_mem_iff.mp (eq_of_beq hkind)
    exact ⟨width, hmem⟩
  · rintro ⟨width, hmem⟩
    exact ⟨.mem width, hmem, rfl⟩

theorem any_isImmediate_kind_iff {ops : List Operand} :
    ops.any (fun op => op.kind.isImmediate) ↔ ∃ value, .imm value ∈ ops := by
  rw [List.any_eq_true]
  constructor
  · rintro ⟨op, hmem, hkind⟩
    obtain ⟨value, rfl⟩ := Operand.isImmediate_kind_iff.mp hkind
    exact ⟨value, hmem⟩
  · rintro ⟨value, hmem⟩
    exact ⟨.imm value, hmem, rfl⟩

section Rule

variable {stored : List Operand} {op : Operand}

theorem exists_refuses_iff :
    (∃ reason, Refuses stored op reason) ↔
      (∃ width other, op = .mem width ∧ .mem other ∈ stored)
        ∨ (∃ value other, op = .imm value ∧ .imm other ∈ stored)
        ∨ operandLimit ≤ stored.length := by
  constructor
  · rintro ⟨reason, h⟩
    cases h with
    | memory h => exact .inl ⟨_, _, rfl, h⟩
    | immediate h => exact .inr (.inl ⟨_, _, rfl, h⟩)
    | full hfull => exact .inr (.inr hfull)
  · intro h
    by_cases hmemory : ∃ width other, op = .mem width ∧ .mem other ∈ stored
    · obtain ⟨width, other, rfl, hmem⟩ := hmemory
      exact ⟨_, .memory hmem⟩
    by_cases himmediate : ∃ value other, op = .imm value ∧ .imm other ∈ stored
    · obtain ⟨value, other, rfl, hmem⟩ := himmediate
      exact ⟨_, .immediate hmem⟩
    · have hfull := (h.resolve_left hmemory).resolve_left himmediate
      refine ⟨_, .full hfull ?_ ?_⟩
      · exact fun width other hop hmem => hmemory ⟨width, other, hop, hmem⟩
      · exact fun value other hop hmem => himmediate ⟨value, other, hop, hmem⟩

theorem exists_refuses_iff_any :
    (∃ reason, Refuses stored op reason) ↔
      (op.kind = .mem ∧ stored.any fun other => other.kind == .mem)
        ∨ (op.kind.isImmediate ∧ stored.any fun other => other.kind.isImmediate)
        ∨ operandLimit ≤ stored.length := by
  rw [exists_refuses_iff, any_kind_mem_iff, any_isImmediate_kind_iff, Operand.kind_eq_mem_iff,
    Operand.isImmediate_kind_iff]
  simp only [exists_and_left, exists_and_right]

/-- The rule asks for the kinds of the stored operands and for their number. -/
instance (stored : List Operand) (op : Operand) :
    Decidable (∃ reason, Refuses stored op reason) :=
  decidable_of_iff' _ exists_refuses_iff_any

end Rule

end MachineCode
