import MachineCode.Proofs.X86.ReadBack
import MachineCode.Proofs.X86.WrittenForms
import MachineCode.X86.Outcome

/-!
# The output of a call

The bytes of an instruction reach the output all together or not at all. Written one by one they
never crash, and a refusal, however late, leaves them in the scratch area. So the engine answers as
the steps do, and what it answers and leaves depends on the output only in its size.
-/

namespace MachineCode.X86

/-! ### The output that is left -/

theorem toList_overwrite {size : Nat} (buffer : Vector UInt8 size) {bytes : List UInt8}
    (hlength : bytes.length ≤ size) :
    (overwrite buffer bytes).toList = bytes ++ buffer.toList.drop bytes.length := by
  calc (overwrite buffer bytes).toList
      = (overwrite buffer bytes).toList.take bytes.length
        ++ (overwrite buffer bytes).toList.drop bytes.length := (List.take_append_drop _ _).symm
    _ = bytes ++ buffer.toList.drop bytes.length := by
      rw [toList_take_overwrite buffer hlength]
      congr 1
      apply List.ext_getElem
      · simp
      · intro index hindex hbuffer
        simp [overwrite]

theorem delivers_emit (inst : Instruction) {room : Nat} (output : Vector UInt8 room) :
    Delivers (encode inst) output (emit inst output).1 (emit inst output).2 := by
  rw [emit]
  cases encode inst with
  | error fault => exact ⟨rfl, rfl⟩
  | ok bytes =>
    by_cases hroom : bytes.length ≤ room
    · simp only [Delivers, if_pos hroom, true_and]
      exact toList_overwrite output hroom
    · simp only [Delivers, if_neg hroom, and_self]

/-! ### Steps and outcomes -/

namespace Writing

variable {room : Nat}

theorem deliver_eq (bytes : List UInt8) (output : Vector UInt8 room) :
    deliver ⟨bytes, output⟩
      = if bytes.length ≤ room then .ok bytes.length ⟨bytes, overwrite output bytes⟩
        else .error (.fault (.refused ⟨.bufferTooShort⟩)) ⟨bytes, output⟩ := by
  have hget : (deliver : Writing room Nat) ⟨bytes, output⟩
      = (if bytes.length ≤ room then do
            set (Workspace.mk bytes (overwrite output bytes))
            return bytes.length
          else refuse .bufferTooShort : Writing room Nat) ⟨bytes, output⟩ := rfl
  rw [hget]
  by_cases hroom : bytes.length ≤ room
  · rw [if_pos hroom, if_pos hroom]
    rfl
  · rw [if_neg hroom, if_neg hroom]
    rfl

theorem scratch_written {inst : Instruction} (hcount : inst.operandCount ≤ operandLimit) :
    Written (scratch inst : Writing room Unit) (layoutOf inst) := by
  rw [scratch, layoutOf, if_neg (Nat.not_lt.mpr hcount)]
  cases mnemonic? inst.cls with
  | none => exact .refuse .badClass
  | some entry => exact .check fun ops _ => .check fun setting _ => operation_written _ _

/-- The steps crash nowhere. They answer what the engine answers, and leave what it leaves. -/
theorem emit_eq (inst : Instruction) (output : Vector UInt8 room) :
    emit inst output = ((X86.emit inst output).1.mapError .fault, (X86.emit inst output).2) := by
  have hinstruction : (instruction inst : Writing room Nat) ⟨[], output⟩
      = EStateM.bind (scratch inst) (fun _ => deliver) ⟨[], output⟩ := rfl
  rw [emit, hinstruction, EStateM.bind, X86.emit, encode]
  by_cases hcount : operandLimit < inst.operandCount
  · rw [if_pos hcount, scratch, if_pos hcount]
    rfl
  rw [if_neg hcount]
  have hwritten : Written (scratch inst : Writing room Unit) (layoutOf inst) :=
    scratch_written (Nat.not_lt.mp hcount)
  have hends := hwritten.fills output
  generalize (scratch inst : Writing room Unit) ⟨[], output⟩ = result at hends
  cases hlayout : layoutOf inst with
  | error code =>
    rw [hlayout] at hends
    cases hends
    rfl
  | ok layout =>
    rw [hlayout] at hends
    cases hends
    simp only [deliver_eq]
    by_cases hroom : layout.bytes.length ≤ room
    · simp only [if_pos hroom]
      rfl
    · simp only [if_neg hroom]
      rfl

end Writing

/-! ### Instructions -/

section Instructions

variable {inst : Instruction} {room : Nat}

theorem length_of_encode {bytes : List UInt8} (h : encode inst = .ok bytes) :
    1 ≤ bytes.length ∧ bytes.length ≤ longestInstruction := by
  rw [encode] at h
  split at h
  · cases h
  rename_i hcount
  have hwritten : Writing.Written (Writing.scratch inst : Writing 0 Unit) (layoutOf inst) :=
    Writing.scratch_written (Nat.not_lt.mp hcount)
  split at h
  · rename_i layout hlayout
    cases h
    exact hwritten.length layout hlayout
  · cases h

theorem count_le_of_emit {count : Nat} {output : Vector UInt8 room}
    (h : (emit inst output).1 = .ok count) : count ≤ room := by
  rw [emit] at h
  split at h
  · cases h
  split at h
  · rename_i hroom
    cases h
    exact hroom
  · cases h

/-- An output of thirteen bytes has room for every instruction. -/
theorem exists_emit_iff (hroom : longestInstruction ≤ room) (output : Vector UInt8 room) :
    (∃ count, (engine.emit inst output).1 = .ok count) ↔ ∃ bytes, encode inst = .ok bytes := by
  have hemit : engine.emit inst output = emit inst output := rfl
  rw [hemit, emit]
  cases hencode : encode inst with
  | error fault => simp
  | ok bytes =>
    have hlength := length_of_encode hencode
    have hfits : bytes.length ≤ room := hlength.2.trans hroom
    simp [hfits]

/-- **Every call returns, with at most thirteen bytes.** Written one by one, the bytes never
overflow the scratch area, and no field is wider than its value and no opcode larger than a byte. -/
theorem emit_returns_bounded (inst : Instruction) {room : Nat} (output : Vector UInt8 room) :
    (∀ reason, (Writing.emit inst output).1 ≠ .error (.crash reason))
      ∧ Writing.emit inst output
        = ((engine.emit inst output).1.mapError .fault, (engine.emit inst output).2)
      ∧ (∀ count, (engine.emit inst output).1 = .ok count → 1 ≤ count ∧ count ≤ 13)
      ∧ (6 < inst.requested.length →
        engine.emit inst output = (.error .unrepresentable, output)) := by
  have hemit : engine.emit inst output = emit inst output := rfl
  rw [hemit]
  refine ⟨fun reason hcrash => ?_, Writing.emit_eq inst output, fun count hcount => ?_,
    fun hmany => ?_⟩
  · rw [Writing.emit_eq] at hcrash
    cases hanswer : (emit inst output).1 with
    | ok count => simp [hanswer, Except.mapError] at hcrash
    | error fault => simp [hanswer, Except.mapError] at hcrash
  · have hlength : (produced inst output count).length = count := by
      have hroom := count_le_of_emit hcount
      rw [produced, List.length_take, Vector.length_toList, Nat.min_eq_left hroom]
    rw [← hlength]
    exact length_of_encode (encode_eq_of_emit hcount)
  · have hcount : operandLimit < inst.operandCount := hmany
    rw [emit, encode, if_pos hcount]

/-- ADD of an immediate of four bytes to the memory at [R8D + R9D*4 + 12345678h]. -/
def longestAdd : Instruction where
  mode := .mode64
  cls := ⟨1⟩
  operandBits := 64
  requested := [.mem ⟨⟨25⟩, ⟨26⟩, 4, 0x12345678, 32, 64⟩, .unsigned 5 32]

theorem emit_returns_longestAdd :
    (engine.emit longestAdd (Vector.replicate 13 0)).1 = .ok 13 ∧ 1 ≤ 13 ∧ 13 ≤ 13 := by
  have hemit : (engine.emit longestAdd (Vector.replicate 13 0)).1 = .ok 13 := rfl
  obtain ⟨-, -, hbounds, -⟩ := emit_returns_bounded longestAdd (Vector.replicate 13 0)
  exact ⟨hemit, hbounds 13 hemit⟩

/-- **The output is all or nothing.** An instruction has one outcome, bytes or a fault, whatever the
output is. A fault leaves the output as it was, also where the steps have written bytes before they
are refused. Bytes are put in front of it, if it has room for them. -/
theorem exists_outcome_delivers (inst : Instruction) :
    ∃ outcome : Except EngineFault (List UInt8),
      ∀ {room : Nat} (output : Vector UInt8 room),
        Delivers outcome output (engine.emit inst output).1 (engine.emit inst output).2
          ∧ Writing.emit inst output
            = ((engine.emit inst output).1.mapError .fault, (engine.emit inst output).2) :=
  ⟨encode inst, fun output => ⟨delivers_emit inst output, Writing.emit_eq inst output⟩⟩

end Instructions

end MachineCode.X86
