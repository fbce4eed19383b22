import MachineCode.Proofs.X86.Writing

/-!
# Every form is written

One theorem for each family: its steps write the layout that the form has, or are refused for the
same reason. The families differ in the opcodes, which are shown to be bytes, and in the widths of
their immediates, which the forms have restricted before a field is cut.
-/

namespace MachineCode.X86

namespace Writing

/-- Steps without an immediate are followed by none. -/
theorem Written.alone {room : Nat} {steps : Writing room Unit} {form : Except RefusalCode Layout}
    (h : Written (steps >>= fun _ => Writing.pushAll []) form) : Written steps form := by
  have hsame : (steps >>= fun _ => Writing.pushAll []) = steps := bind_pure_unit
  rwa [hsame] at h

section Families

variable {room : Nat} {setting : Setting} {ops : List Operand}

theorem form_written {opcode : Nat} {field : RegFieldUse} {target : RegOrMem}
    {immediate : List UInt8} (hopcode : opcode < 256)
    (hlength : setting.size.prefixLength + immediate.length ≤ 4) :
    Written (form setting opcode field target >>= fun _ => pushAll immediate : Writing room Unit)
      (setting.modRmForm opcode field target immediate) := by
  rw [form, opcodeByte_eq_pure hopcode, pure_bind]
  apply written_modRm (List.cons_ne_nil _ _)
  rw [List.length_singleton]
  omega

theorem form_written_alone {opcode : Nat} {field : RegFieldUse} {target : RegOrMem}
    (hopcode : opcode < 256) :
    Written (form setting opcode field target : Writing room Unit)
      (setting.modRmForm opcode field target) := by
  have hprefix : setting.size.prefixLength ≤ 1 := Bool.toNat_le _
  apply Written.alone
  apply form_written hopcode
  rw [List.length_nil]
  omega

/-- A form with an immediate that is as wide as the size allows. -/
theorem form_written_full {opcode : Nat} {field : RegFieldUse} {target : RegOrMem} {value : UInt64}
    {bits : UInt8} (hopcode : opcode < 256) (hbits : bits.toNat = setting.size.immediateBits) :
    Written (form setting opcode field target >>= fun _ => pushImmediate value bits
      : Writing room Unit) (setting.modRmForm opcode field target (immediateBytes value bits)) := by
  have hsum := setting.size.prefixLength_add_immediateBits
  rw [← hbits] at hsum
  rw [pushImmediate_eq_pushAll (by omega)]
  apply form_written hopcode
  rw [length_immediateBytes]
  exact hsum

theorem form_written_byte {opcode : Nat} {field : RegFieldUse} {target : RegOrMem} {value : UInt64}
    {bits : UInt8} (hopcode : opcode < 256) (hbits : bits = 8) :
    Written (form setting opcode field target >>= fun _ => pushImmediate value bits
      : Writing room Unit) (setting.modRmForm opcode field target (immediateBytes value bits)) := by
  have hprefix : setting.size.prefixLength ≤ 1 := Bool.toNat_le _
  subst hbits
  rw [pushImmediate_eq_pushAll (by decide)]
  apply form_written hopcode
  rw [length_immediateBytes]
  have hbyte : (8 : UInt8).toNat / 8 = 1 := rfl
  omega

theorem accumulator_written {opcode : Nat} {value : UInt64} {bits : UInt8} (hopcode : opcode < 256)
    (hbits : bits.toNat = setting.size.immediateBits) :
    Written (accumulator setting opcode >>= fun _ => pushImmediate value bits : Writing room Unit)
      (setting.accumulatorForm opcode (immediateBytes value bits)) := by
  have hsum := setting.size.prefixLength_add_immediateBits
  rw [← hbits] at hsum
  rw [pushImmediate_eq_pushAll (by omega), accumulator]
  simp only [bind_assoc]
  apply written_withoutModRm rfl hopcode
  rw [length_immediateBytes]
  omega

theorem regPair_written {opcode : Nat} {reg : Register} {other : Operand}
    (hopcode : opcode + setting.size.wideBit < 256) :
    Written (regPair setting opcode reg other : Writing room Unit)
      (setting.regPairForm opcode reg other) :=
  .check fun _ _ => .check fun _ _ => form_written_alone hopcode

theorem OperandSize.wideBit_le (size : OperandSize) : size.wideBit ≤ 1 := by
  cases size <;> decide

theorem alu_written (op : AluOp) (ops : List Operand) :
    Written (alu setting op ops : Writing room Unit) (setting.alu op ops) := by
  have hdigit := op.digit.isLt
  have hwide := OperandSize.wideBit_le setting.size
  rcases ops with _ | ⟨first, _ | ⟨second, _ | ⟨third, rest⟩⟩⟩
  · exact .refuse .badOperandCount
  · cases first <;> exact .refuse .badOperandCount
  · cases second with
    | imm value bits =>
      cases first
      all_goals
        refine .check fun target _ => .ite (fun hfull => .ite (fun _ => ?_) fun _ => ?_)
          fun _ => .ite (fun hbyte => ?_) fun _ => .refuse .noMatchingForm
        · exact accumulator_written (by omega) hfull
        · exact form_written_full (by omega) hfull
        · exact form_written_byte (by decide) hbyte
    | reg src =>
      cases first with
      | reg dst => exact regPair_written (by omega)
      | mem dst => exact regPair_written (by omega)
      | _ => exact .refuse .noMatchingForm
    | mem src =>
      cases first with
      | reg dst => exact regPair_written (by omega)
      | _ => exact .refuse .noMatchingForm
    | rel => cases first <;> exact .refuse .noMatchingForm
  · cases first <;> cases second <;> exact .refuse .badOperandCount

theorem movImmediate_written (dst : Operand) (value : UInt64) (bits : UInt8) :
    Written (movImmediate setting dst value bits : Writing room Unit)
      (setting.movImmediate dst value bits) := by
  have hwide := OperandSize.wideBit_le setting.size
  refine .ite (fun hfull => .check fun target _ => ?_) fun _ => .refuse .noMatchingForm
  exact form_written_full (by omega) hfull

/-- MOV of an immediate as wide as the register, of up to eight bytes. -/
theorem movRegister_written {dst : Register} {value : UInt64} {bits : UInt8}
    (hbits : bits.toNat = setting.size.bits) :
    Written (prefixes setting.mode setting.size (setting.size = .qword) (some dst) >>= fun _ =>
        opcodeByte (0xB0 + 8 * setting.size.wideBit + dst.code) >>= fun byte =>
          push byte >>= fun _ => pushImmediate value bits : Writing room Unit)
      (withoutModRm setting.mode setting.size (setting.size = .qword)
        (0xB0 + 8 * setting.size.wideBit) (some dst) (immediateBytes value bits)) := by
  have hwide := OperandSize.wideBit_le setting.size
  have hcode := dst.code.isLt
  have hwidth : setting.size.bits ≤ 64 := by cases setting.size <;> decide
  rw [pushImmediate_eq_pushAll (by omega)]
  have hopcode : 0xB0 + 8 * setting.size.wideBit + dst.code.val < 256 := by omega
  apply written_withoutModRm rfl hopcode
  rw [length_immediateBytes]
  omega

theorem mov_written (ops : List Operand) :
    Written (mov setting ops : Writing room Unit) (setting.mov ops) := by
  have hwide := OperandSize.wideBit_le setting.size
  rcases ops with _ | ⟨first, _ | ⟨second, _ | ⟨third, rest⟩⟩⟩
  · exact .refuse .badOperandCount
  · cases first <;> exact .refuse .badOperandCount
  · cases first with
    | reg dst =>
      cases second with
      | reg src => exact regPair_written (by omega)
      | mem src => exact regPair_written (by omega)
      | imm value bits =>
        refine .ite (fun hbits => .check fun dst _ => ?_) fun _ => movImmediate_written _ _ _
        exact movRegister_written hbits
      | rel => exact .refuse .noMatchingForm
    | mem dst =>
      cases second with
      | reg src => exact regPair_written (by omega)
      | imm value bits => exact movImmediate_written _ _ _
      | _ => exact .refuse .noMatchingForm
    | _ => cases second <;> exact .refuse .noMatchingForm
  · cases first <;> cases second <;> exact .refuse .badOperandCount

theorem lea_written (ops : List Operand) :
    Written (lea setting ops : Writing room Unit) (setting.lea ops) := by
  rcases ops with _ | ⟨first, _ | ⟨second, _ | ⟨third, rest⟩⟩⟩
  · exact .refuse .badOperandCount
  · cases first <;> exact .refuse .badOperandCount
  · cases first with
    | reg dst =>
      cases second with
      | mem src =>
        refine .ite (fun _ => .refuse .noMatchingForm) fun _ => .check fun dst _ => ?_
        exact form_written_alone (by decide)
      | _ => exact .refuse .noMatchingForm
    | _ => cases second <;> exact .refuse .noMatchingForm
  · cases first <;> cases second <;> exact .refuse .badOperandCount

theorem test_written (ops : List Operand) :
    Written (test setting ops : Writing room Unit) (setting.test ops) := by
  have hwide := OperandSize.wideBit_le setting.size
  rcases ops with _ | ⟨first, _ | ⟨second, _ | ⟨third, rest⟩⟩⟩
  · exact .refuse .badOperandCount
  · cases first <;> exact .refuse .badOperandCount
  · cases second with
    | imm value bits =>
      cases first
      all_goals
        refine .ite (fun hfull => .check fun target _ => .ite (fun _ => ?_) fun _ => ?_)
          fun _ => .refuse .noMatchingForm
        · exact accumulator_written (by omega) hfull
        · exact form_written_full (by omega) hfull
    | reg src =>
      cases first with
      | reg dst => exact regPair_written (by omega)
      | mem dst => exact regPair_written (by omega)
      | _ => exact .refuse .noMatchingForm
    | mem src =>
      cases first with
      | reg dst => exact regPair_written (by omega)
      | _ => exact .refuse .noMatchingForm
    | rel => cases first <;> exact .refuse .noMatchingForm
  · cases first <;> cases second <;> exact .refuse .badOperandCount

/-! ### One operand -/

theorem unary_written (op : UnaryOp) (ops : List Operand) :
    Written (unary setting op ops : Writing room Unit) (setting.unary op ops) := by
  have hwide := OperandSize.wideBit_le setting.size
  rcases ops with _ | ⟨dst, _ | ⟨second, rest⟩⟩
  · exact .refuse .badOperandCount
  · exact .check fun target _ => form_written_alone (by omega)
  · exact .refuse .badOperandCount

theorem shift_written (op : ShiftOp) (ops : List Operand) :
    Written (shift setting op ops : Writing room Unit) (setting.shift op ops) := by
  have hwide := OperandSize.wideBit_le setting.size
  have hprefix : setting.size.prefixLength ≤ 1 := Bool.toNat_le _
  rcases ops with _ | ⟨dst, _ | ⟨count, _ | ⟨third, rest⟩⟩⟩
  · exact .refuse .badOperandCount
  · exact .refuse .badOperandCount
  · refine .check fun target _ => ?_
    cases count with
    | imm value bits =>
      refine .ite (fun _ => ?_) fun _ => .refuse .noMatchingForm
      rw [push_eq_pushAll]
      have hlength : setting.size.prefixLength + [value.toUInt8].length ≤ 4 := by
        rw [List.length_singleton]
        omega
      exact form_written (by omega) hlength
    | reg reg =>
      exact .ite (fun _ => form_written_alone (by omega)) fun _ => .refuse .noMatchingForm
    | _ => exact .refuse .noMatchingForm
  · exact .refuse .badOperandCount

/-- The short forms ask for the prefixes of no register. In 32-bit mode those of a register operand
are the same, as such a register needs no REX. -/
theorem prefixes_of_mode32 {size : OperandSize} {reg : Register}
    (hreg : checkRegister .mode32 size reg = .ok reg) :
    (prefixes .mode32 size (size = .qword) none : Writing room Unit)
      = prefixes .mode32 size false (some reg) := by
  obtain ⟨-, -, hmode⟩ := checkRegister_eq_ok_iff.mp hreg
  obtain ⟨hqword, hextended, hneeds⟩ := hmode rfl
  rw [prefixes, prefixes]
  simp [rexPrefix, Rex.isClear, hqword, hextended, hneeds]

theorem stepRegister_written {op : StepOp} {reg : Register} (hmode : setting.mode = .mode32)
    (hreg : checkRegister setting.mode setting.size reg = .ok reg) :
    Written (prefixes setting.mode setting.size (setting.size = .qword) none >>= fun _ =>
        opcodeByte (0x40 + 8 * op.digit + reg.code) >>= fun byte => push byte
        : Writing room Unit)
      (withoutModRm setting.mode setting.size false (0x40 + 8 * op.digit) (some reg)) := by
  have hdigit := op.digit.isLt
  have hcode := reg.code.isLt
  rw [hmode] at hreg ⊢
  rw [prefixes_of_mode32 hreg]
  apply Written.alone
  simp only [bind_assoc]
  exact written_withoutModRm rfl (show 0x40 + 8 * op.digit.val + reg.code < 256 by omega)
    (Nat.zero_le _)

theorem step_written (op : StepOp) (ops : List Operand) :
    Written (step setting op ops : Writing room Unit) (setting.step op ops) := by
  have hwide := OperandSize.wideBit_le setting.size
  rcases ops with _ | ⟨dst, _ | ⟨second, rest⟩⟩
  · exact .refuse .badOperandCount
  · refine .check fun target htarget => ?_
    cases target with
    | mem mem => exact form_written_alone (by omega)
    | reg reg =>
      refine .ite (fun hshort => ?_) fun _ => form_written_alone (by omega)
      obtain ⟨rfl, -⟩ := checkRegOrMem_eq_ok htarget
      obtain ⟨checked, hchecked, hsame⟩ := bind_eq_ok.mp htarget
      cases hsame
      exact stepRegister_written hshort.1 hchecked
  · exact .refuse .badOperandCount

/-! ### The stack -/

theorem stackMemory_written (size : OperandSize) (opcode : UInt8) (digit : Fin 8) (mem : Memory) :
    Written (stackMemory setting size opcode digit mem : Writing room Unit)
      (setting.stackMemory size opcode digit mem) := by
  have hprefix : size.prefixLength ≤ 1 := Bool.toNat_le _
  refine .check fun target _ => .alone (written_modRm (List.cons_ne_nil _ _) ?_)
  rw [List.length_singleton, List.length_nil]
  omega

theorem stackRegister_written {size : OperandSize} {opcode : Nat} (hopcode : opcode ≤ 0x58)
    (reg : Register) :
    Written (stackRegister setting size opcode reg : Writing room Unit)
      (setting.stackRegister size opcode reg) := by
  refine .check fun reg _ => .alone ?_
  have hcode := reg.code.isLt
  simp only [bind_assoc]
  exact written_withoutModRm rfl (show opcode + reg.code.val < 256 by omega) (Nat.zero_le _)

theorem pushByte_written {value : UInt64} {bits : UInt8} (hbits : bits = 8) :
    Written (push 0x6A >>= fun _ => pushImmediate value 8 : Writing room Unit)
      (.ok { opcode := [0x6A], immediate := immediateBytes value bits }) := by
  subst hbits
  rw [push_eq_pushAll, pushImmediate_eq_pushAll (by decide), ← pushAll_append]
  refine .pushAll rfl (List.cons_ne_nil _ _) ?_
  rw [List.length_append, length_immediateBytes]
  decide

theorem pushImmediate_written {size : OperandSize} {value : UInt64} {bits : UInt8}
    (hbits : bits.toNat = size.immediateBits) :
    Written (prefixes setting.mode size false none >>= fun _ => push 0x68 >>= fun _ =>
        pushImmediate value bits : Writing room Unit)
      (withoutModRm setting.mode size false 0x68 none (immediateBytes value bits)) := by
  have hsum := size.prefixLength_add_immediateBits
  rw [← hbits] at hsum
  have hopcode : (opcodeByte 0x68 : Writing room UInt8) = pure 0x68 :=
    opcodeByte_eq_pure (by decide)
  have hwritten : Written (prefixes setting.mode size false none >>= fun _ =>
      opcodeByte 0x68 >>= fun byte => push byte >>= fun _ =>
        pushAll (immediateBytes value bits) : Writing room Unit)
      (withoutModRm setting.mode size false 0x68 none (immediateBytes value bits)) := by
    apply written_withoutModRm rfl (by decide)
    rw [length_immediateBytes]
    omega
  rw [pushImmediate_eq_pushAll (by omega)]
  simpa only [hopcode, pure_bind] using hwritten

theorem push_written (ops : List Operand) :
    Written (stackPush setting ops : Writing room Unit) (setting.push ops) := by
  refine .check fun size hsize => ?_
  rcases ops with _ | ⟨first, _ | ⟨second, rest⟩⟩
  · exact .refuse .badOperandCount
  · cases first with
    | reg reg => exact stackRegister_written (by decide) reg
    | mem mem => exact stackMemory_written _ _ _ mem
    | imm value bits =>
      exact .ite (fun hbyte => pushByte_written hbyte) fun _ =>
        .ite (fun hfull => pushImmediate_written hfull) fun _ => .refuse .noMatchingForm
    | rel => exact .refuse .noMatchingForm
  · cases first <;> exact .refuse .badOperandCount

theorem pop_written (ops : List Operand) :
    Written (stackPop setting ops : Writing room Unit) (setting.pop ops) := by
  refine .check fun size _ => ?_
  rcases ops with _ | ⟨first, _ | ⟨second, rest⟩⟩
  · exact .refuse .badOperandCount
  · cases first with
    | reg reg => exact stackRegister_written (by decide) reg
    | mem mem => exact stackMemory_written _ _ _ mem
    | _ => exact .refuse .noMatchingForm
  · cases first <;> exact .refuse .badOperandCount

/-! ### Multiplication -/

theorem imul_written (ops : List Operand) :
    Written (imul setting ops : Writing room Unit) (setting.imul ops) := by
  have hprefix : setting.size.prefixLength ≤ 1 := Bool.toNat_le _
  refine .ite (fun _ => .refuse .noMatchingForm) fun _ => ?_
  rcases ops with _ | ⟨dst, _ | ⟨src, _ | ⟨third, _ | ⟨fourth, rest⟩⟩⟩⟩
  · exact .refuse .badOperandCount
  · cases dst <;> exact .refuse .badOperandCount
  · cases dst with
    | reg dst =>
      refine .check fun dst _ => .check fun target _ => .alone (written_modRm (by decide) ?_)
      rw [List.length_nil, List.length_cons, List.length_singleton]
      omega
    | _ => exact .refuse .noMatchingForm
  · cases dst with
    | reg dst =>
      cases third with
      | imm value bits =>
        exact .check fun dst _ => .check fun target _ =>
          .ite (fun hbyte => form_written_byte (by decide) hbyte) fun _ =>
            .ite (fun hfull => form_written_full (by decide) hfull) fun _ =>
              .refuse .noMatchingForm
      | _ => exact .refuse .noMatchingForm
    | _ => exact .refuse .noMatchingForm
  · cases dst <;> cases third <;> exact .refuse .badOperandCount

/-! ### Branches and the others -/

theorem relative_written {short : Option UInt8} {near : List UInt8} (hnear : near ≠ [])
    (hlength : near.length ≤ 2) (disp : Int32) (bits : UInt8) :
    Written (relative setting short near disp bits : Writing room Unit)
      (setting.relative short near disp bits) := by
  unfold relative Setting.relative
  by_cases h8 : bits.toNat = 8
  · simp only [h8]
    cases short with
    | none => exact .refuse .noMatchingForm
    | some opcode =>
      refine .ite (fun _ => ?_) fun _ => .refuse .badDisplacement
      rw [push_eq_pushAll, push_eq_pushAll, ← pushAll_append]
      exact .pushAll rfl (List.cons_ne_nil _ _) (by simp [longestInstruction])
  by_cases h16 : bits.toNat = 16
  · simp only [h16]
    refine .ite (fun _ => .refuse .invalidMode) fun _ => .ite (fun _ => ?_) fun _ =>
      .refuse .badDisplacement
    rw [push_eq_pushAll, ← pushAll_append, ← pushAll_append]
    refine .pushAll (by simp [Layout.bytes]) (List.cons_ne_nil _ _) ?_
    simp only [List.length_append, List.length_singleton, length_littleEndian, longestInstruction]
    omega
  by_cases h32 : bits.toNat = 32
  · simp only [h32]
    rw [← pushAll_append]
    refine .pushAll (by simp [Layout.bytes]) (by simp [hnear]) ?_
    simp only [List.length_append, length_littleEndian, longestInstruction]
    omega
  · simp only
    exact .refuse .badDisplacement

theorem indirect_written (digit : Fin 8) (op : Operand) :
    Written (indirect setting digit op : Writing room Unit) (setting.indirect digit op) :=
  .check fun _ _ => .alone (written_modRm (List.cons_ne_nil _ _) (by decide))

theorem branch_written {short : Option UInt8} {near : List UInt8} (hnear : near ≠ [])
    (hlength : near.length ≤ 2) (digit : Fin 8) (ops : List Operand) :
    Written (branch setting short near digit ops : Writing room Unit)
      (setting.branch short near digit ops) := by
  rcases ops with _ | ⟨first, _ | ⟨second, rest⟩⟩
  · exact .refuse .badOperandCount
  · cases first with
    | rel disp bits => exact relative_written hnear hlength disp bits
    | reg reg => exact indirect_written digit (.reg reg)
    | mem mem => exact indirect_written digit (.mem mem)
    | imm => exact .refuse .noMatchingForm
  · cases first <;> exact .refuse .badOperandCount

theorem jumpIf_written (condition : Fin 16) (ops : List Operand) :
    Written (jumpIf setting condition ops : Writing room Unit) (setting.jumpIf condition ops) := by
  have hcondition := condition.isLt
  rcases ops with _ | ⟨first, _ | ⟨second, rest⟩⟩
  · exact .refuse .badOperandCount
  · cases first with
    | rel disp bits =>
      rw [jumpIf, opcodeByte_eq_pure (by omega), opcodeByte_eq_pure (by omega), pure_bind,
        pure_bind]
      have hlength : [0x0F, UInt8.ofNat (0x80 + condition)].length ≤ 2 := Nat.le_refl 2
      exact relative_written (List.cons_ne_nil _ _) hlength disp bits
    | _ => exact .refuse .noMatchingForm
  · cases first <;> exact .refuse .badOperandCount

theorem interrupt_written (ops : List Operand) :
    Written (interrupt ops : Writing room Unit) (interruptForm ops) := by
  rcases ops with _ | ⟨first, _ | ⟨second, rest⟩⟩
  · exact .refuse .badOperandCount
  · cases first with
    | imm value bits =>
      refine .ite (fun _ => ?_) fun _ => .refuse .noMatchingForm
      rw [push_eq_pushAll, push_eq_pushAll, ← pushAll_append]
      exact .pushAll rfl (List.cons_ne_nil _ _) (by simp [longestInstruction])
    | _ => exact .refuse .noMatchingForm
  · cases first <;> exact .refuse .badOperandCount

theorem system_written (op : SystemOp) (ops : List Operand) :
    Written (system op ops : Writing room Unit) (systemForm op ops) := by
  rcases ops with _ | ⟨first, rest⟩
  · refine .pushAll ?_ ?_ ?_
    · simp [Layout.bytes]
    · cases op <;> decide
    · cases op <;> decide
  · exact .refuse .badOperandCount

/-- Every operation writes the layout that it has, of one to thirteen bytes. -/
theorem operation_written (op : Operation) (ops : List Operand) :
    Written (operation setting op ops : Writing room Unit) (setting.layout op ops) := by
  cases op with
  | alu op => exact alu_written op ops
  | mov => exact mov_written ops
  | lea => exact lea_written ops
  | test => exact test_written ops
  | step op => exact step_written op ops
  | unary op => exact unary_written op ops
  | shift op => exact shift_written op ops
  | push => exact push_written ops
  | pop => exact pop_written ops
  | imul => exact imul_written ops
  | jmp => exact branch_written (List.cons_ne_nil _ _) (by decide) 4 ops
  | call => exact branch_written (List.cons_ne_nil _ _) (by decide) 2 ops
  | jumpIf condition => exact jumpIf_written condition ops
  | int => exact interrupt_written ops
  | system op => exact system_written op ops

end Families

end Writing

end MachineCode.X86
