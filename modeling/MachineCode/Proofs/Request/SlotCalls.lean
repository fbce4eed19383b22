import Mathlib.Data.List.GetD
import MachineCode.Proofs.Request.Slots
import MachineCode.Request.SlotCalls

/-!
# Operand slots as a bounded list

Slots that were filled by calls are fixed by the operands pushed since the last clearing: the first of
them stand in front and every slot behind them is empty. So nothing of an earlier filling can show,
and two such lists are the same as soon as they hold the same operands.
-/

namespace MachineCode

namespace OperandSlots

variable {pushed other : List Operand} {op : Operand}

/-- The first operands of a list, in slots of which the others are empty. -/
def holding (pushed : List Operand) : OperandSlots where
  slots := Vector.ofFn fun slot => pushed.getD slot .empty
  size := min pushed.length operandLimit

theorem empty_eq_holding : empty = holding [] := rfl

theorem size_holding (pushed : List Operand) :
    (holding pushed).size = min pushed.length operandLimit := rfl

theorem getElem_slots_holding {slot : Nat} (hslot : slot < operandLimit) :
    (holding pushed).slots[slot] = pushed.getD slot .empty := by
  rw [holding, Vector.getElem_ofFn]

theorem eq_holding {ops : OperandSlots} (hsize : ops.size = min pushed.length operandLimit)
    (hslots : ∀ slot, (hslot : slot < operandLimit) → ops.slots[slot] = pushed.getD slot .empty) :
    ops = holding pushed := by
  cases ops with
  | mk slots size =>
    rw [OperandSlots.mk.injEq]
    refine ⟨?_, hsize⟩
    ext slot hslot
    rw [hslots slot hslot, getElem_slots_holding]

theorem toList_holding (pushed : List Operand) :
    (holding pushed).toList = pushed.take operandLimit := by
  apply List.ext_getElem?
  intro index
  simp only [toList, holding, List.getElem?_take]
  by_cases hlimit : index < operandLimit
  · by_cases hpushed : index < pushed.length
    · have hindex : index < min pushed.length operandLimit := by omega
      simp [hindex, hlimit, hpushed]
    · have hindex : ¬ index < min pushed.length operandLimit := by omega
      simp [hindex, hlimit, hpushed]
  · have hindex : ¬ index < min pushed.length operandLimit := by omega
    simp [hindex, hlimit]

/-- The slots behind the operands are empty. -/
theorem getElem_slots_of_size_le {slot : Nat} (hslot : slot < operandLimit)
    (hsize : (holding pushed).size ≤ slot) : (holding pushed).slots[slot] = .empty := by
  have hpushed : pushed.length ≤ slot := by
    rw [size_holding] at hsize
    omega
  rw [getElem_slots_holding, List.getD_eq_default _ _ hpushed]

/-! ### One call -/

theorem push_holding_of_lt (hroom : pushed.length < operandLimit) (op : Operand) :
    (holding pushed).push op = .ok (holding (pushed ++ [op])) := by
  have hsize : (holding pushed).size = pushed.length := Nat.min_eq_left (Nat.le_of_lt hroom)
  rw [push, dif_pos (by omega)]
  apply congrArg Except.ok
  apply eq_holding
  · simp only [hsize, List.length_append, List.length_singleton]
    omega
  · intro slot hslot
    simp only [Vector.getElem_set, hsize, getElem_slots_holding]
    rcases Nat.lt_trichotomy slot pushed.length with hlt | rfl | hgt
    · rw [if_neg (Nat.ne_of_gt hlt), List.getD_append _ _ _ _ hlt]
    · simp
    · have hbehind : (pushed ++ [op]).length ≤ slot := by
        rw [List.length_append, List.length_singleton]
        omega
      rw [if_neg (Nat.ne_of_lt hgt), List.getD_eq_default _ _ (Nat.le_of_lt hgt),
        List.getD_eq_default _ _ hbehind]

theorem push_holding_of_le (hfull : operandLimit ≤ pushed.length) (op : Operand) :
    (holding pushed).push op = .error op := by
  have hsize : (holding pushed).size = operandLimit := Nat.min_eq_right hfull
  rw [push, dif_neg (by omega)]

/-- What follows a full list does not matter. -/
theorem holding_append_of_le (hfull : operandLimit ≤ pushed.length) (more : List Operand) :
    holding (pushed ++ more) = holding pushed := by
  apply eq_holding
  · rw [size_holding, List.length_append]
    omega
  · intro slot hslot
    rw [getElem_slots_holding, List.getD_append _ _ _ _ (Nat.lt_of_lt_of_le hslot hfull)]

theorem answer_holding_of_lt (hroom : pushed.length < operandLimit) (op : Operand) :
    (holding pushed).answer (.push op) = ⟨none, holding (pushed ++ [op])⟩ := by
  rw [answer, push_holding_of_lt hroom]

theorem answer_holding_of_le (hfull : operandLimit ≤ pushed.length) (op : Operand) :
    (holding pushed).answer (.push op) = ⟨some op, holding pushed⟩ := by
  rw [answer, push_holding_of_le hfull]

theorem answer_slots_holding (pushed : List Operand) (call : SlotCall) :
    ((holding pushed).answer call).slots = holding (call.follow pushed) := by
  cases call with
  | clear => rfl
  | push op =>
    rw [SlotCall.follow]
    by_cases hroom : pushed.length < operandLimit
    · rw [answer_holding_of_lt hroom]
    · have hfull : operandLimit ≤ pushed.length := Nat.le_of_not_lt hroom
      rw [answer_holding_of_le hfull, holding_append_of_le hfull]

/-! ### Histories -/

theorem holding_take (pushed : List Operand) :
    holding (pushed.take operandLimit) = holding pushed := by
  by_cases hfull : operandLimit ≤ pushed.length
  · have hfront : operandLimit ≤ (pushed.take operandLimit).length := by
      rw [List.length_take]
      omega
    rw [← holding_append_of_le hfront (pushed.drop operandLimit), List.take_append_drop]
  · rw [List.take_of_length_le (by omega)]

theorem holding_eq_iff :
    holding pushed = holding other ↔ (holding pushed).toList = (holding other).toList := by
  constructor
  · intro h
    rw [h]
  · intro h
    rw [toList_holding, toList_holding] at h
    calc
      holding pushed = holding (pushed.take operandLimit) := (holding_take pushed).symm
      _ = holding (other.take operandLimit) := by rw [h]
      _ = holding other := holding_take other

theorem after_holding (pushed : List Operand) (calls : List SlotCall) :
    (holding pushed).after calls = holding (calls.foldl SlotCall.follow pushed) := by
  induction calls generalizing pushed with
  | nil => rfl
  | cons call calls ih =>
    rw [after, List.foldl_cons, answer_slots_holding]
    exact ih (call.follow pushed)

theorem after_empty (calls : List SlotCall) :
    empty.after calls = holding (SlotCall.pushed calls) := by
  rw [empty_eq_holding, after_holding, SlotCall.pushed]

theorem after_append (ops : OperandSlots) (calls more : List SlotCall) :
    ops.after (calls ++ more) = (ops.after calls).after more :=
  List.foldl_append

theorem after_empty_eq_iff {calls others : List SlotCall} :
    empty.after calls = empty.after others ↔
      (empty.after calls).toList = (empty.after others).toList := by
  rw [after_empty, after_empty]
  exact holding_eq_iff

/-- **Operand slots are a bounded list.** After any history of calls on new slots, the operands are
the first six of those pushed since the last clearing, in order, and every other slot is empty. The
next push stores its operand or, if six are stored, hands it back and changes nothing. So two
histories leave the same slots if and only if they leave the same operands, and a test for a kind of
operand is one on the first six. -/
theorem after_holds_first_pushed (calls : List SlotCall) :
    let ops := empty.after calls
    let pushed := SlotCall.pushed calls
    (ops.toList = pushed.take 6 ∧ ops.size = (pushed.take 6).length)
      ∧ (∀ op, ops.answer (.push op) =
        if pushed.length < 6 then ⟨none, empty.after (calls ++ [.push op])⟩ else ⟨some op, ops⟩)
      ∧ (∀ slot, (hslot : slot < 6) → ops.size ≤ slot → ops.slots[slot] = .empty)
      ∧ (∀ others, ops = empty.after others ↔ ops.toList = (empty.after others).toList)
      ∧ ∀ test, ops.any test ↔ ∃ op ∈ pushed.take 6, test op.kind := by
  intro ops pushed
  have hops : ops = holding pushed := after_empty calls
  have htoList : ops.toList = pushed.take operandLimit := hops ▸ toList_holding pushed
  refine ⟨⟨htoList, ?_⟩, ?_, ?_, ?_, ?_⟩
  · rw [hops, size_holding, List.length_take, Nat.min_comm]
    rfl
  · intro op
    have hnext : (ops.answer (.push op)).slots = empty.after (calls ++ [.push op]) :=
      (after_append empty calls [.push op]).symm
    by_cases hroom : pushed.length < 6
    · rw [if_pos hroom, ← hnext, hops, answer_holding_of_lt hroom]
    · rw [if_neg hroom, hops, answer_holding_of_le (Nat.le_of_not_lt hroom)]
  · intro slot hslot hsize
    simp only [hops] at hsize ⊢
    exact getElem_slots_of_size_le hslot hsize
  · exact fun others => after_empty_eq_iff
  · intro test
    rw [any, htoList, List.any_eq_true]
    rfl

end OperandSlots

/-! ### Requests -/

/-- A request calls its slots once for an operand that it stores, and else not at all. -/
theorem Request.exists_push_operands (req : Request) (op : Operand) :
    ∃ calls, (req.push op).operands = req.operands.after calls := by
  rw [push]
  cases happend : req.append op with
  | error misuse => exact ⟨[], rfl⟩
  | ok appended =>
    obtain ⟨operands, hpush, rfl⟩ := append_eq_ok happend
    refine ⟨[.push op], ?_⟩
    simp only [OperandSlots.after, List.foldl_cons, List.foldl_nil, OperandSlots.answer, hpush]

end MachineCode
