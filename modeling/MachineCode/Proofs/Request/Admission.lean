import MachineCode.Proofs.Request.Slots
import MachineCode.Request.Admission

/-!
# What a request stores

A push onto a request follows the rule of admission, and the rule keeps the stored operands within
bounds: a sublist of the pushed ones, at most `operandLimit` of them, with one memory operand and
one immediate at most. The inductions are over the pushes, the last one first, since that is the one
the rule decides from what is stored.
-/

namespace MachineCode

/-! ### The rule -/

section Rule

variable {pushed stored : List Operand} {first : Option Misuse} {op : Operand}

theorem Refuses.unique {reason other : Misuse} (h : Refuses stored op reason)
    (hother : Refuses stored op other) : reason = other := by
  cases h with
  | memory hmem =>
    cases hother with
    | memory _ => rfl
    | full _ hmemory _ => exact absurd hmem (hmemory _ _ rfl)
  | immediate hmem =>
    cases hother with
    | immediate _ => rfl
    | full _ _ himmediate => exact absurd hmem (himmediate _ _ rfl)
  | full _ hmemory himmediate =>
    cases hother with
    | memory hmem => exact absurd hmem (hmemory _ _ rfl)
    | immediate hmem => exact absurd hmem (himmediate _ _ rfl)
    | full _ _ _ => rfl

theorem admits_nil_iff : Admits [] stored first ↔ stored = [] ∧ first = none := by
  constructor
  · intro h
    generalize hnil : [] = pushed at h
    cases h with
    | nil => exact ⟨rfl, rfl⟩
    | store _ _ => simp at hnil
    | skip _ _ => simp at hnil
  · rintro ⟨rfl, rfl⟩
    exact .nil

/-- The last push is decided by what is stored of those before it. -/
theorem admits_append_singleton_iff :
    Admits (pushed ++ [op]) stored first ↔
      ∃ before kept, Admits pushed before kept
        ∧ (((∀ reason, ¬ Refuses before op reason) ∧ stored = before ++ [op] ∧ first = kept)
          ∨ ∃ reason, Refuses before op reason ∧ stored = before
            ∧ first = some (kept.getD reason)) := by
  constructor
  · intro h
    generalize hpushed : pushed ++ [op] = all at h
    cases h with
    | nil => simp at hpushed
    | store h hop =>
      obtain ⟨rfl, hlast⟩ := List.append_inj' hpushed rfl
      cases hlast
      exact ⟨_, _, h, .inl ⟨hop, rfl, rfl⟩⟩
    | skip h hop =>
      obtain ⟨rfl, hlast⟩ := List.append_inj' hpushed rfl
      cases hlast
      exact ⟨_, _, h, .inr ⟨_, hop, rfl, rfl⟩⟩
  · rintro ⟨before, kept, h, ⟨hop, rfl, rfl⟩ | ⟨reason, hop, rfl, rfl⟩⟩
    · exact .store h hop
    · exact .skip h hop

/-- The rule leaves no choice. -/
theorem Admits.unique {other : List Operand} {kept : Option Misuse} (h : Admits pushed stored first)
    (hother : Admits pushed other kept) : stored = other ∧ first = kept := by
  induction h generalizing other kept with
  | nil =>
    obtain ⟨rfl, rfl⟩ := admits_nil_iff.mp hother
    exact ⟨rfl, rfl⟩
  | store _ hop ih =>
    obtain ⟨before, kept, hbefore, hlast⟩ := admits_append_singleton_iff.mp hother
    obtain ⟨rfl, rfl⟩ := ih hbefore
    rcases hlast with ⟨-, rfl, rfl⟩ | ⟨reason, hreason, -, -⟩
    · exact ⟨rfl, rfl⟩
    · exact absurd hreason (hop reason)
  | skip _ hop ih =>
    obtain ⟨before, kept, hbefore, hlast⟩ := admits_append_singleton_iff.mp hother
    obtain ⟨rfl, rfl⟩ := ih hbefore
    rcases hlast with ⟨hstored, -, -⟩ | ⟨reason, hreason, rfl, rfl⟩
    · exact absurd hop (hstored _)
    · rw [hop.unique hreason]
      exact ⟨rfl, rfl⟩

theorem Admits.sublist (h : Admits pushed stored first) : stored.Sublist pushed := by
  induction h with
  | nil => exact List.Sublist.refl []
  | store _ _ ih => exact ih.append (List.Sublist.refl _)
  | @skip pushed _ _ op _ _ _ ih => exact ih.trans (List.sublist_append_left pushed [op])

theorem Admits.length_le (h : Admits pushed stored first) : stored.length ≤ operandLimit := by
  induction h with
  | nil => exact Nat.zero_le _
  | @store _ stored _ op _ hop ih =>
    have hroom : ¬ operandLimit ≤ stored.length := by
      intro hfull
      have hrefuses : ∃ reason, Refuses stored op reason :=
        exists_refuses_iff.mpr (.inr (.inr hfull))
      exact hrefuses.elim hop
    rw [List.length_append, List.length_singleton]
    omega
  | skip _ _ ih => exact ih

/-- At most one stored operand satisfies a test, if any two that do refuse each other. -/
theorem Admits.countP_le_one {test : Operand → Bool} (h : Admits pushed stored first)
    (hrefuses : ∀ {stored op other}, test op → test other → other ∈ stored →
      ∃ reason, Refuses stored op reason) : stored.countP test ≤ 1 := by
  induction h with
  | nil => exact Nat.zero_le _
  | @store _ stored _ op _ hop ih =>
    rw [List.countP_append, List.countP_singleton]
    by_cases htest : test op
    · have hnone : stored.countP test = 0 := by
        rw [List.countP_eq_zero]
        intro other hmem hother
        obtain ⟨reason, hreason⟩ := hrefuses htest hother hmem
        exact hop reason hreason
      rw [if_pos htest]
      omega
    · rwa [if_neg htest]
  | skip _ _ ih => exact ih

theorem Admits.countP_memory_le (h : Admits pushed stored first) :
    stored.countP (fun op => op.kind == .mem) ≤ 1 := by
  apply h.countP_le_one
  intro stored op other hop hother hmem
  obtain ⟨width, rfl⟩ := Operand.kind_eq_mem_iff.mp (eq_of_beq hop)
  obtain ⟨otherWidth, rfl⟩ := Operand.kind_eq_mem_iff.mp (eq_of_beq hother)
  exact ⟨_, .memory hmem⟩

theorem Admits.countP_immediate_le (h : Admits pushed stored first) :
    stored.countP (fun op => op.kind.isImmediate) ≤ 1 := by
  apply h.countP_le_one
  intro stored op other hop hother hmem
  obtain ⟨value, rfl⟩ := Operand.isImmediate_kind_iff.mp hop
  obtain ⟨otherValue, rfl⟩ := Operand.isImmediate_kind_iff.mp hother
  exact ⟨_, .immediate hmem⟩

theorem Admits.eq_none_iff (h : Admits pushed stored first) : first = none ↔ stored = pushed := by
  induction h with
  | nil => simp
  | store _ _ ih => rw [ih, List.append_cancel_right_eq]
  | @skip pushed stored first op reason h _ _ =>
    have hlength := h.sublist.length_le
    constructor
    · intro hnone
      cases hnone
    · rintro rfl
      rw [List.length_append, List.length_singleton] at hlength
      omega

/-- The reason that is kept is that of a push before which every push was stored. -/
theorem Admits.exists_first {reason : Misuse} (h : Admits pushed stored (some reason)) :
    ∃ before op after, pushed = before ++ op :: after ∧ Admits before before none
      ∧ Refuses before op reason := by
  generalize hfirst : some reason = first at h
  induction h with
  | nil => cases hfirst
  | @store _ _ _ op _ _ ih =>
    obtain ⟨before, refused, after, rfl, hbefore, hrefused⟩ := ih hfirst
    exact ⟨before, refused, after ++ [op], by simp, hbefore, hrefused⟩
  | @skip pushed stored first op _ h hop ih =>
    cases first with
    | none =>
      cases hfirst
      obtain rfl := h.eq_none_iff.mp rfl
      exact ⟨stored, op, [], rfl, h, hop⟩
    | some kept =>
      obtain ⟨before, refused, after, rfl, hbefore, hrefused⟩ := ih hfirst
      exact ⟨before, refused, after ++ [op], by simp, hbefore, hrefused⟩

end Rule

/-! ### Pushes onto a request -/

namespace OperandSlots

variable {ops : OperandSlots}

theorem hasMemory_iff : ops.hasMemory ↔ ∃ width, .mem width ∈ ops.toList :=
  any_kind_mem_iff

theorem hasImmediate_iff : ops.hasImmediate ↔ ∃ value, .imm value ∈ ops.toList :=
  any_isImmediate_kind_iff

theorem le_size_of_push_eq_error {op refused : Operand} (h : ops.push op = .error refused) :
    operandLimit ≤ ops.size := by
  rw [push] at h
  split at h
  · cases h
  · omega

end OperandSlots

namespace Request

variable {req : Request} {op : Operand} {reason : Misuse} {pushed : List Operand}

theorem refuses_of_append (hsize : req.operands.size ≤ operandLimit)
    (h : req.append op = .error reason) : Refuses req.operands.toList op reason := by
  rw [append] at h
  split at h
  · rename_i hmemory
    rw [Bool.and_eq_true, decide_eq_true_eq] at hmemory
    obtain ⟨width, rfl⟩ := Operand.kind_eq_mem_iff.mp hmemory.1
    obtain ⟨other, hmem⟩ := OperandSlots.hasMemory_iff.mp hmemory.2
    cases h
    exact .memory hmem
  rename_i hmemory
  split at h
  · rename_i himmediate
    rw [Bool.and_eq_true] at himmediate
    obtain ⟨value, rfl⟩ := Operand.isImmediate_kind_iff.mp himmediate.1
    obtain ⟨other, hmem⟩ := OperandSlots.hasImmediate_iff.mp himmediate.2
    cases h
    exact .immediate hmem
  rename_i himmediate
  split at h
  · cases h
  · rename_i hpush
    have hfull := OperandSlots.le_size_of_push_eq_error hpush
    rw [← OperandSlots.length_toList hsize] at hfull
    cases h
    refine .full hfull ?_ ?_
    · rintro width other rfl hmem
      exact hmemory (by simpa [Operand.kind] using OperandSlots.hasMemory_iff.mpr ⟨other, hmem⟩)
    · rintro value other rfl hmem
      exact himmediate (by
        simpa [Operand.kind, OperandKind.isImmediate] using
          OperandSlots.hasImmediate_iff.mpr ⟨other, hmem⟩)

theorem not_refuses_of_append {appended : Request} (hsize : req.operands.size ≤ operandLimit)
    (h : req.append op = .ok appended) (reason : Misuse) :
    ¬ Refuses req.operands.toList op reason := by
  intro hrefuses
  rw [append] at h
  rcases exists_refuses_iff.mp ⟨reason, hrefuses⟩ with
    ⟨width, other, rfl, hmem⟩ | ⟨value, other, rfl, hmem⟩ | hfull
  · simp [Operand.kind, OperandSlots.hasMemory_iff.mpr ⟨other, hmem⟩] at h
  · simp [Operand.kind, OperandKind.isImmediate,
      OperandSlots.hasImmediate_iff.mpr ⟨other, hmem⟩] at h
  · rw [OperandSlots.length_toList hsize] at hfull
    split at h
    · cases h
    split at h
    · cases h
    split at h
    · rename_i hpush
      have hroom := (OperandSlots.push_eq_ok hpush).1
      omega
    · cases h

/-- A push onto a request follows the rule. -/
theorem admits_push (hreq : Admits pushed req.operands.toList req.misuse)
    (hsize : req.operands.size ≤ operandLimit) (op : Operand) :
    Admits (pushed ++ [op]) (req.push op).operands.toList (req.push op).misuse := by
  rw [push]
  cases happend : req.append op with
  | ok appended =>
    have hrule := not_refuses_of_append hsize happend
    obtain ⟨operands, hpush, rfl⟩ := append_eq_ok happend
    change Admits _ operands.toList req.misuse
    rw [(OperandSlots.push_eq_ok hpush).2.2]
    exact .store hreq hrule
  | error reason =>
    have hskip := Admits.skip hreq (refuses_of_append hsize happend)
    exact hskip

/-! ### The kept misuse -/

theorem pushMemory_misuse (req : Request) (width : UInt16) (address : Address) :
    (req.pushMemory width address).misuse = (req.push (.mem width)).misuse := by
  rw [pushMemory, push]
  cases req.append (.mem width) <;> rfl

/-- A misuse that is kept stays, whatever is pushed. -/
theorem misuse_push (h : req.misuse = some reason) (op : Operand) :
    (req.push op).misuse = some reason := by
  rw [push]
  split
  · rename_i happend
    obtain ⟨operands, -, rfl⟩ := append_eq_ok happend
    exact h
  · rw [latch, h]
    rfl

end Request

end MachineCode
