import MachineCode.Request.Basic

/-!
# The operands of a request

However a request was built, its operands fill the slots from the front: no more than there is room
for, and none of them empty.
-/

namespace MachineCode

namespace OperandSlots

variable {ops pushed : OperandSlots} {op : Operand}

theorem length_toList (hsize : ops.size ≤ operandLimit) : ops.toList.length = ops.size := by
  rw [toList, List.length_take, Vector.length_toList]
  omega

theorem length_toList_le (ops : OperandSlots) : ops.toList.length ≤ operandLimit := by
  rw [toList, List.length_take, Vector.length_toList]
  exact Nat.min_le_right _ _

theorem push_eq_ok (h : ops.push op = .ok pushed) :
    ops.size < operandLimit ∧ pushed.size = ops.size + 1
      ∧ pushed.toList = ops.toList ++ [op] := by
  rw [push] at h
  split at h
  · rename_i hlt
    cases h
    have hroom : ops.size < ops.slots.toList.length := by
      rw [Vector.length_toList]
      exact hlt
    refine ⟨hlt, rfl, ?_⟩
    rw [toList, toList, Vector.toList_set, List.take_add_one, List.getElem?_set_self hroom,
      List.take_set_of_le (Nat.le_refl _)]
    rfl
  · cases h

/-- The slots are filled from the front. -/
structure Packed (ops : OperandSlots) : Prop where
  size_le : ops.size ≤ operandLimit
  not_empty : .empty ∉ ops.toList

theorem packed_empty : empty.Packed :=
  ⟨by decide, by simp [toList, empty]⟩

theorem Packed.push (hops : ops.Packed) (hop : op ≠ .empty) (h : ops.push op = .ok pushed) :
    pushed.Packed := by
  obtain ⟨hlt, hsize, htoList⟩ := push_eq_ok h
  refine ⟨by omega, ?_⟩
  rw [htoList, List.mem_append, List.mem_singleton, not_or]
  exact ⟨hops.not_empty, hop.symm⟩

end OperandSlots

namespace Request

variable {req : Request} {op : Operand}

theorem append_eq_ok {appended : Request} (h : req.append op = .ok appended) :
    ∃ operands, req.operands.push op = .ok operands ∧ appended = { req with operands } := by
  rw [append] at h
  split at h
  · cases h
  split at h
  · cases h
  split at h
  · rename_i operands hpush
    cases h
    exact ⟨operands, hpush, rfl⟩
  · cases h

theorem packed_append {appended : Request} (hreq : req.operands.Packed) (hop : op ≠ .empty)
    (h : req.append op = .ok appended) : appended.operands.Packed := by
  obtain ⟨operands, hpush, rfl⟩ := append_eq_ok h
  exact hreq.push hop hpush

theorem packed_push (hreq : req.operands.Packed) (hop : op ≠ .empty) :
    (req.push op).operands.Packed := by
  rw [push]
  split
  · rename_i appended happend
    exact packed_append hreq hop happend
  · exact hreq

/-- A memory operand is stored as any other. -/
theorem pushMemory_operands (req : Request) (width : UInt16) (address : Address) :
    (req.pushMemory width address).operands = (req.push (.mem width)).operands := by
  rw [pushMemory, push]
  cases req.append (.mem width) <;> rfl

theorem packed_pushMemory (hreq : req.operands.Packed) (width : UInt16) (address : Address) :
    (req.pushMemory width address).operands.Packed := by
  rw [pushMemory_operands]
  exact packed_push hreq (by simp)

end Request

end MachineCode
