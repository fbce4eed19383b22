import MachineCode.Proofs.X86.Forms

/-!
# What an operation comes to

Every operation refuses its operands in one of its checks, or it writes one instruction: with ModR/M,
whose target is one of the operands, or without it. Behind all else stands the one operand that is an
immediate or a branch displacement. What can go wrong in an instruction, and what stands at its end,
is read off these shapes.
-/

namespace MachineCode.X86

/-- The refusals of the checks that come before ModR/M and the prefixes. -/
def checkRefusals : List RefusalCode :=
  [.invalidMode, .badRegister, .badOperandCount, .operandSizeMismatch, .noMatchingForm]

/-! ### Checks -/

section Checks

variable {setting : Setting} {mode : Mode} {size : OperandSize} {code : RefusalCode}

theorem checkRegister_eq_error {reg : Register} (h : checkRegister mode size reg = .error code) :
    code ∈ checkRefusals := by
  rw [checkRegister] at h
  split at h
  · cases h
    decide
  split at h
  · cases h
    decide
  split at h
  · cases h
    decide
  · cases h

theorem checkRegOrMem_eq_error {op : Operand} (h : checkRegOrMem mode size op = .error code) :
    code ∈ checkRefusals := by
  cases op with
  | reg reg =>
    rw [checkRegOrMem, bind_eq_error] at h
    rcases h with h | ⟨checked, -, h⟩
    · exact checkRegister_eq_error h
    · cases h
  | mem mem =>
    rw [checkRegOrMem] at h
    split at h
    · cases h
      decide
    · cases h
  | imm | rel =>
    cases h
    decide

theorem stackSize_eq_error (h : setting.stackSize = .error code) : code ∈ checkRefusals := by
  rw [Setting.stackSize] at h
  split at h <;> cases h
  decide

theorem ofBits_eq_error {bits : UInt8} (h : Setting.ofBits mode bits = .error code) :
    code ∈ checkRefusals := by
  unfold Setting.ofBits at h
  split at h <;> cases h <;> decide

theorem Memory.addressBits_eq_error {mem : Memory} (h : mem.addressBits = .error code) :
    code = .badRegister := by
  rw [addressBits] at h
  split at h
  · cases h
  · split at h
    · cases h
    · exact (Except.error.inj h).symm
  · split at h
    · cases h
    · exact (Except.error.inj h).symm

theorem Memory.addressPrefix_eq_error {mem : Memory} (h : mem.addressPrefix mode = .error code) :
    code ∈ checkRefusals := by
  rw [addressPrefix, bind_eq_error] at h
  rcases h with h | ⟨bits, -, h⟩
  · rw [Memory.addressBits_eq_error h]
    decide
  split at h
  · cases h
  · cases h
  · cases h
  · cases h
    decide
  · split at h
    · cases h
      decide
    · cases h
  · cases h
    decide

theorem rexPrefix_eq_error {rex : Rex} {regs : List Register}
    (h : rexPrefix mode rex regs = .error code) : code ∈ .highByteWithRex :: checkRefusals := by
  rw [rexPrefix] at h
  split at h
  · cases h
  split at h
  · cases h
    decide
  split at h
  · cases h
    decide
  · cases h

end Checks

/-! ### The end of an instruction -/

/-- What the `r/m` field of ModR/M can name. -/
def Operand.isPlace : Operand → Bool
  | .reg _ | .mem _ => true
  | .imm _ _ | .rel _ _ => false

@[simp]
theorem Operand.isPlace_reg (reg : Register) : (Operand.reg reg).isPlace = true := rfl

@[simp]
theorem Operand.isPlace_mem (mem : Memory) : (Operand.mem mem).isPlace = true := rfl

@[simp]
theorem RegOrMem.isPlace_operand (target : RegOrMem) : target.operand.isPlace = true := by
  cases target <;> rfl

/-- The bytes hold the operand that is an immediate, of a width within the limit, or a branch
displacement. -/
structure EndsIn (limit : Nat) (ops : List Operand) (bytes : List UInt8) : Prop where
  imm : ∀ value bits, .imm value bits ∈ ops →
    bytes = immediateBytes value bits ∧ bits.toNat ≤ limit
  rel : ∀ disp bits, .rel disp bits ∈ ops →
    bytes = littleEndian (bits.toNat / 8) disp.toUInt32.toNat

namespace EndsIn

variable {limit : Nat} {ops : List Operand} {bytes : List UInt8}

theorem of_places (h : ∀ op ∈ ops, op.isPlace) : EndsIn limit ops bytes where
  imm value bits hmem := by simpa [Operand.isPlace] using h _ hmem
  rel disp bits hmem := by simpa [Operand.isPlace] using h _ hmem

theorem of_immediate (front : List Operand) (h : ∀ op ∈ front, op.isPlace) {value : UInt64}
    {bits : UInt8} (hbits : bits.toNat ≤ limit) :
    EndsIn limit (front ++ [.imm value bits]) (immediateBytes value bits) where
  imm other width hmem := by
    rcases List.mem_append.mp hmem with hfront | hlast
    · simpa [Operand.isPlace] using h _ hfront
    · cases List.mem_singleton.mp hlast
      exact ⟨rfl, hbits⟩
  rel disp width hmem := by
    rcases List.mem_append.mp hmem with hfront | hlast
    · simpa [Operand.isPlace] using h _ hfront
    · cases List.mem_singleton.mp hlast

theorem of_relative {disp : Int32} {bits : UInt8}
    (h : bytes = littleEndian (bits.toNat / 8) disp.toUInt32.toNat) :
    EndsIn limit [.rel disp bits] bytes where
  imm value width hmem := by cases List.mem_singleton.mp hmem
  rel other width hmem := by
    cases List.mem_singleton.mp hmem
    exact h

end EndsIn

/-! ### Shapes -/

/-- A relative branch has a field of so many bits, and the displacement fits it. -/
def Reaches (disp : Int32) (bits : UInt8) : Prop :=
  bits.toNat ∈ [8, 16, 32] ∧ Setting.branchFits disp bits.toNat

/-- What the layout of an operation on the operands comes to. -/
inductive ComesTo (setting : Setting) (ops : List Operand) : Except RefusalCode Layout → Prop where
  | refused {code : RefusalCode} (h : code ∈ checkRefusals) : ComesTo setting ops (.error code)
  | outOfReach {disp : Int32} {bits : UInt8} (hmem : .rel disp bits ∈ ops)
      (h : ¬Reaches disp bits) : ComesTo setting ops (.error .badDisplacement)
  | withModRm {size : OperandSize} {wide : Bool} {opcode : List UInt8} {field : RegFieldUse}
      {target : RegOrMem} {immediate : List UInt8} (htarget : target.operand ∈ ops)
      (hends : EndsIn setting.size.bits ops immediate) :
      ComesTo setting ops (withModRm setting.mode size wide opcode field target immediate)
  | withoutModRm {size : OperandSize} {wide : Bool} {opcode : Nat} {reg : Option Register}
      {immediate : List UInt8} (hends : EndsIn setting.size.bits ops immediate) :
      ComesTo setting ops (withoutModRm setting.mode size wide opcode reg immediate)
  /-- There is nothing to check about prefixes. -/
  | fixed {layout : Layout} (hends : EndsIn setting.size.bits ops layout.immediate) :
      ComesTo setting ops (.ok layout)

namespace ComesTo

variable {setting : Setting} {ops : List Operand}

theorem check {α : Type} {result : Except RefusalCode α}
    {form : α → Except RefusalCode Layout}
    (hresult : ∀ code, result = .error code → code ∈ checkRefusals)
    (h : ∀ a, result = .ok a → ComesTo setting ops (form a)) :
    ComesTo setting ops (result >>= form) := by
  cases result with
  | error code => exact .refused (hresult code rfl)
  | ok a => exact h a rfl

theorem register {reg : Register} {form : Register → Except RefusalCode Layout}
    (h : ∀ checked, ComesTo setting ops (form checked)) :
    ComesTo setting ops (setting.register reg >>= form) :=
  check (fun _ => checkRegister_eq_error) fun checked _ => h checked

theorem regOrMem {mode : Mode} {size : OperandSize} {op : Operand}
    {form : RegOrMem → Except RefusalCode Layout}
    (h : ∀ target, op = target.operand → ComesTo setting ops (form target)) :
    ComesTo setting ops (checkRegOrMem mode size op >>= form) :=
  check (fun _ => checkRegOrMem_eq_error) fun target htarget =>
    h target (checkRegOrMem_eq_ok htarget).1

theorem ite {p : Prop} [Decidable p] {first second : Except RefusalCode Layout}
    (hfirst : p → ComesTo setting ops first) (hsecond : ¬p → ComesTo setting ops second) :
    ComesTo setting ops (if p then first else second) := by
  split
  · rename_i hp
    exact hfirst hp
  · rename_i hp
    exact hsecond hp

theorem noMatchingForm : ComesTo setting ops (.error .noMatchingForm) := .refused (by decide)

theorem badOperandCount : ComesTo setting ops (.error .badOperandCount) := .refused (by decide)

end ComesTo

theorem OperandSize.immediateBits_le_bits (size : OperandSize) : size.immediateBits ≤ size.bits := by
  cases size <;> decide

theorem OperandSize.eight_le_bits (size : OperandSize) : 8 ≤ size.bits := by
  cases size <;> decide

namespace Setting

section Families

variable {setting : Setting} {ops : List Operand} {value : UInt64} {bits : UInt8}

/-- An immediate of one byte fits every operand size. -/
theorem bits_le_of_byte (hbits : bits = 8) : bits.toNat ≤ setting.size.bits := by
  rw [hbits]
  exact setting.size.eight_le_bits

theorem bits_le_of_full (hbits : bits.toNat = setting.size.immediateBits) :
    bits.toNat ≤ setting.size.bits :=
  Nat.le_trans (Nat.le_of_eq hbits) setting.size.immediateBits_le_bits

theorem regPairForm_comesTo {opcode : Nat} {reg : Register} {other : Operand} (hother : other ∈ ops)
    (hplaces : ∀ op ∈ ops, op.isPlace) :
    ComesTo setting ops (setting.regPairForm opcode reg other) := by
  refine .register fun reg => .regOrMem fun target htarget => ?_
  exact .withModRm (htarget ▸ hother) (.of_places hplaces)

theorem alu_comesTo (op : AluOp) (ops : List Operand) :
    ComesTo setting ops (setting.alu op ops) := by
  unfold alu
  split
  · exact regPairForm_comesTo (by simp) (by simp)
  · exact regPairForm_comesTo (by simp) (by simp)
  · exact regPairForm_comesTo (by simp) (by simp)
  · rename_i dst value bits
    refine .regOrMem fun target htarget => ?_
    subst htarget
    have hends (hbits : bits.toNat ≤ setting.size.bits) :
        EndsIn setting.size.bits [target.operand, .imm value bits] (immediateBytes value bits) :=
      .of_immediate [target.operand] (by simp) hbits
    refine .ite (fun hfull => .ite (fun _ => ?_) fun _ => ?_) fun _ => .ite (fun hbyte => ?_) ?_
    · exact .withoutModRm (hends (bits_le_of_full hfull))
    · exact .withModRm (by simp) (hends (bits_le_of_full hfull))
    · exact .withModRm (by simp) (hends (bits_le_of_byte hbyte))
    · exact fun _ => .noMatchingForm
  · exact .noMatchingForm
  · exact .badOperandCount

theorem movImmediate_comesTo (dst : Operand) (value : UInt64) (bits : UInt8) :
    ComesTo setting [dst, .imm value bits] (setting.movImmediate dst value bits) := by
  refine .ite (fun hfull => .regOrMem fun target htarget => ?_) fun _ => .noMatchingForm
  subst htarget
  exact .withModRm (by simp) (.of_immediate [target.operand] (by simp) (bits_le_of_full hfull))

theorem mov_comesTo (ops : List Operand) : ComesTo setting ops (setting.mov ops) := by
  unfold mov
  split
  · exact regPairForm_comesTo (by simp) (by simp)
  · exact regPairForm_comesTo (by simp) (by simp)
  · exact regPairForm_comesTo (by simp) (by simp)
  · rename_i dst value bits
    refine .ite (fun hbits => .register fun _ => .withoutModRm ?_) fun _ => ?_
    · exact .of_immediate [.reg dst] (by simp) (Nat.le_of_eq hbits)
    · exact movImmediate_comesTo _ _ _
  · exact movImmediate_comesTo _ _ _
  · exact .noMatchingForm
  · exact .badOperandCount

theorem lea_comesTo (ops : List Operand) : ComesTo setting ops (setting.lea ops) := by
  unfold lea
  split
  · refine .ite (fun _ => .noMatchingForm) fun _ => .register fun _ => .withModRm ?_ ?_
    · simp [RegOrMem.operand]
    · exact .of_places (by simp)
  · exact .noMatchingForm
  · exact .badOperandCount

theorem test_comesTo (ops : List Operand) : ComesTo setting ops (setting.test ops) := by
  unfold test
  split
  · exact regPairForm_comesTo (by simp) (by simp)
  · exact regPairForm_comesTo (by simp) (by simp)
  · exact regPairForm_comesTo (by simp) (by simp)
  · rename_i left value bits
    refine .ite (fun hfull => .regOrMem fun target htarget => ?_) fun _ => .noMatchingForm
    subst htarget
    have hends : EndsIn setting.size.bits [target.operand, .imm value bits]
        (immediateBytes value bits) :=
      .of_immediate [target.operand] (by simp) (bits_le_of_full hfull)
    exact .ite (fun _ => .withoutModRm hends) fun _ => .withModRm (by simp) hends
  · exact .noMatchingForm
  · exact .badOperandCount

theorem step_comesTo (op : StepOp) (ops : List Operand) :
    ComesTo setting ops (setting.step op ops) := by
  unfold step
  split
  · refine .regOrMem fun target htarget => ?_
    subst htarget
    have hends {immediate : List UInt8} :
        EndsIn setting.size.bits [target.operand] immediate := .of_places (by simp)
    cases target with
    | reg reg =>
      exact .ite (fun _ => .withoutModRm hends) fun _ => .withModRm (by simp) hends
    | mem mem => exact .withModRm (by simp) hends
  · exact .badOperandCount

theorem unary_comesTo (op : UnaryOp) (ops : List Operand) :
    ComesTo setting ops (setting.unary op ops) := by
  unfold unary
  split
  · refine .regOrMem fun target htarget => ?_
    subst htarget
    exact .withModRm (by simp) (.of_places (by simp))
  · exact .badOperandCount

theorem shift_comesTo (op : ShiftOp) (ops : List Operand) :
    ComesTo setting ops (setting.shift op ops) := by
  unfold shift
  split
  · rename_i dst count
    refine .regOrMem fun target htarget => ?_
    subst htarget
    cases count with
    | imm value bits =>
      refine .ite (fun hbyte => ?_) fun _ => .noMatchingForm
      subst hbyte
      exact .withModRm (by simp) (.of_immediate [target.operand] (by simp) (bits_le_of_byte rfl))
    | reg reg =>
      refine .ite (fun _ => .withModRm (by simp) (.of_places (by simp))) fun _ => .noMatchingForm
    | mem | rel => exact .noMatchingForm
  · exact .badOperandCount

theorem stackRegister_comesTo (size : OperandSize) (opcode : Nat) (reg : Register) :
    ComesTo setting [.reg reg] (setting.stackRegister size opcode reg) := by
  refine .check (fun _ => checkRegister_eq_error) fun _ _ => .withoutModRm ?_
  exact .of_places (by simp)

theorem stackMemory_comesTo (size : OperandSize) (opcode : UInt8) (digit : Fin 8) (mem : Memory) :
    ComesTo setting [.mem mem] (setting.stackMemory size opcode digit mem) := by
  refine .regOrMem fun target htarget => .withModRm (by simp [htarget]) ?_
  exact .of_places (by simp)

/-- The stack size is no less than the operand size, but the widths of its immediates are. -/
theorem bits_le_of_stack {size : OperandSize} (hstack : setting.stackSize = .ok size)
    (hbits : bits.toNat = size.immediateBits) : bits.toNat ≤ setting.size.bits := by
  obtain ⟨mode, settingSize⟩ := setting
  rw [hbits]
  cases mode <;> cases settingSize <;> cases hstack <;> decide

theorem push_comesTo (ops : List Operand) : ComesTo setting ops (setting.push ops) := by
  refine .check (fun _ => stackSize_eq_error) fun size hstack => ?_
  split
  · exact stackRegister_comesTo _ _ _
  · exact stackMemory_comesTo _ _ _ _
  · rename_i value bits
    refine .ite (fun hbyte => .fixed ?_) fun _ => .ite (fun hfull => .withoutModRm ?_) ?_
    · exact .of_immediate [] (by simp) (bits_le_of_byte hbyte)
    · exact .of_immediate [] (by simp) (bits_le_of_stack hstack hfull)
    · exact fun _ => .noMatchingForm
  · exact .noMatchingForm
  · exact .badOperandCount

theorem pop_comesTo (ops : List Operand) : ComesTo setting ops (setting.pop ops) := by
  refine .check (fun _ => stackSize_eq_error) fun size hstack => ?_
  split
  · exact stackRegister_comesTo _ _ _
  · exact stackMemory_comesTo _ _ _ _
  · exact .noMatchingForm
  · exact .badOperandCount

theorem imul_comesTo (ops : List Operand) : ComesTo setting ops (setting.imul ops) := by
  refine .ite (fun _ => .noMatchingForm) fun _ => ?_
  split
  · refine .register fun _ => .regOrMem fun target htarget => ?_
    subst htarget
    exact .withModRm (by simp) (.of_places (by simp))
  · rename_i dst src value bits
    refine .register fun _ => .regOrMem fun target htarget => ?_
    subst htarget
    have hends (hbits : bits.toNat ≤ setting.size.bits) :
        EndsIn setting.size.bits [.reg dst, target.operand, .imm value bits]
          (immediateBytes value bits) :=
      .of_immediate [.reg dst, target.operand] (by simp) hbits
    refine .ite (fun hbyte => ?_) fun _ => .ite (fun hfull => ?_) fun _ => .noMatchingForm
    · exact .withModRm (by simp) (hends (bits_le_of_byte hbyte))
    · exact .withModRm (by simp) (hends (bits_le_of_full hfull))
  · exact .noMatchingForm
  · exact .noMatchingForm
  · exact .badOperandCount

theorem relative_comesTo (short : Option UInt8) (near : List UInt8) (disp : Int32) (bits : UInt8) :
    ComesTo setting [.rel disp bits] (setting.relative short near disp bits) := by
  have hfar (h : ¬Reaches disp bits) :
      ComesTo setting [.rel disp bits] (.error .badDisplacement) := .outOfReach (by simp) h
  unfold relative
  split
  · rename_i hbits
    cases short with
    | none => exact .noMatchingForm
    | some opcode =>
      refine .ite (fun _ => .fixed (.of_relative ?_)) fun hfits => hfar ?_
      · rw [hbits]
      · rw [Reaches, hbits]
        exact fun hreaches => hfits hreaches.2
  · rename_i hbits
    refine .ite (fun _ => .refused (by decide)) fun _ => ?_
    refine .ite (fun _ => .fixed (.of_relative ?_)) fun hfits => hfar ?_
    · rw [hbits]
    · rw [Reaches, hbits]
      exact fun hreaches => hfits hreaches.2
  · rename_i hbits
    refine .fixed (.of_relative ?_)
    rw [hbits]
  · rename_i hbyte hword hfull
    refine hfar fun hreaches => ?_
    have hwidth := hreaches.1
    simp only [List.mem_cons, List.not_mem_nil, or_false] at hwidth
    rcases hwidth with h | h | h
    · exact hbyte h
    · exact hword h
    · exact hfull h

theorem indirect_comesTo (digit : Fin 8) {op : Operand} (hop : op.isPlace) :
    ComesTo setting [op] (setting.indirect digit op) := by
  refine .regOrMem fun target htarget => .withModRm (by simp [htarget]) ?_
  exact .of_places (by simp [hop])

theorem branch_comesTo (short : Option UInt8) (near : List UInt8) (digit : Fin 8)
    (ops : List Operand) : ComesTo setting ops (setting.branch short near digit ops) := by
  unfold branch
  split
  · exact relative_comesTo _ _ _ _
  · exact indirect_comesTo _ rfl
  · exact indirect_comesTo _ rfl
  · exact .noMatchingForm
  · exact .badOperandCount

theorem jumpIf_comesTo (condition : Fin 16) (ops : List Operand) :
    ComesTo setting ops (setting.jumpIf condition ops) := by
  unfold jumpIf
  split
  · exact relative_comesTo _ _ _ _
  · exact .noMatchingForm
  · exact .badOperandCount

theorem interruptForm_comesTo (ops : List Operand) : ComesTo setting ops (interruptForm ops) := by
  unfold interruptForm
  split
  · refine .ite (fun hbyte => .fixed ?_) fun _ => .noMatchingForm
    subst hbyte
    exact .of_immediate [] (by simp) (bits_le_of_byte rfl)
  · exact .noMatchingForm
  · exact .badOperandCount

theorem systemForm_comesTo (op : SystemOp) (ops : List Operand) :
    ComesTo setting ops (systemForm op ops) := by
  unfold systemForm
  split
  · exact .fixed (.of_places (by simp))
  · exact .badOperandCount

/-- Every operation comes to one of the shapes. -/
theorem layout_comesTo (setting : Setting) (operation : Operation) (ops : List Operand) :
    ComesTo setting ops (setting.layout operation ops) := by
  cases operation with
  | alu op => exact alu_comesTo op ops
  | mov => exact mov_comesTo ops
  | lea => exact lea_comesTo ops
  | test => exact test_comesTo ops
  | step op => exact step_comesTo op ops
  | unary op => exact unary_comesTo op ops
  | shift op => exact shift_comesTo op ops
  | push => exact push_comesTo ops
  | pop => exact pop_comesTo ops
  | imul => exact imul_comesTo ops
  | jmp => exact branch_comesTo _ _ _ ops
  | call => exact branch_comesTo _ _ _ ops
  | jumpIf condition => exact jumpIf_comesTo condition ops
  | int => exact interruptForm_comesTo ops
  | system op => exact systemForm_comesTo op ops

end Families

end Setting

/-! ### What the shapes say -/

section Results

variable {mode : Mode} {size : OperandSize} {wide : Bool} {immediate : List UInt8}
  {layout : Layout} {code : RefusalCode}

theorem immediate_of_withModRm {opcode : List UInt8} {field : RegFieldUse} {target : RegOrMem}
    (h : withModRm mode size wide opcode field target immediate = .ok layout) :
    layout.immediate = immediate := by
  cases target with
  | reg reg =>
    obtain ⟨rex, -, h⟩ := bind_eq_ok.mp h
    cases h
    rfl
  | mem mem =>
    obtain ⟨addressPrefix, -, h⟩ := bind_eq_ok.mp h
    obtain ⟨rex, -, h⟩ := bind_eq_ok.mp h
    obtain ⟨fields, -, h⟩ := bind_eq_ok.mp h
    cases h
    rfl

theorem immediate_of_withoutModRm {opcode : Nat} {reg : Option Register}
    (h : withoutModRm mode size wide opcode reg immediate = .ok layout) :
    layout.immediate = immediate := by
  obtain ⟨rex, -, h⟩ := bind_eq_ok.mp h
  cases h
  rfl

/-- The cause of a refusal that lies in ModR/M is the address of the target. -/
theorem withModRm_eq_error {opcode : List UInt8} {field : RegFieldUse} {target : RegOrMem}
    (h : withModRm mode size wide opcode field target immediate = .error code) :
    code ∈ .highByteWithRex :: checkRefusals
      ∨ ∃ mem, target = .mem mem ∧ mem.modRm mode field.code = .error code := by
  cases target with
  | reg reg =>
    rw [withModRm, bind_eq_error] at h
    rcases h with h | ⟨rex, -, h⟩
    · exact .inl (rexPrefix_eq_error h)
    · cases h
  | mem mem =>
    rw [withModRm, bind_eq_error] at h
    rcases h with h | ⟨addressPrefix, -, h⟩
    · exact .inl (List.mem_cons_of_mem _ (Memory.addressPrefix_eq_error h))
    rcases bind_eq_error.mp h with h | ⟨rex, -, h⟩
    · exact .inl (rexPrefix_eq_error h)
    rcases bind_eq_error.mp h with h | ⟨fields, -, h⟩
    · exact .inr ⟨mem, rfl, h⟩
    · cases h

variable {setting : Setting} {ops : List Operand} {form : Except RefusalCode Layout}

/-- What is written ends in the operand that is an immediate or a branch displacement. -/
theorem ComesTo.endsIn (h : ComesTo setting ops form) (hform : form = .ok layout) :
    EndsIn setting.size.bits ops layout.immediate := by
  cases h with
  | refused h => cases hform
  | outOfReach hmem h => cases hform
  | withModRm htarget hends => rwa [immediate_of_withModRm hform]
  | withoutModRm hends => rwa [immediate_of_withoutModRm hform]
  | fixed hends =>
    cases hform
    exact hends

/-- What is refused is refused by a check, by the address of a memory operand, or because a branch
does not reach its target. -/
theorem ComesTo.cause (h : ComesTo setting ops form) (hform : form = .error code) :
    code ∈ .highByteWithRex :: checkRefusals
      ∨ (∃ mem reg, .mem mem ∈ ops ∧ mem.modRm setting.mode reg = .error code)
      ∨ code = .badDisplacement ∧ ∃ disp bits, .rel disp bits ∈ ops ∧ ¬Reaches disp bits := by
  cases h with
  | refused h =>
    cases hform
    exact .inl (List.mem_cons_of_mem _ h)
  | outOfReach hmem h =>
    cases hform
    exact .inr (.inr ⟨rfl, _, _, hmem, h⟩)
  | withModRm htarget hends =>
    rcases withModRm_eq_error hform with hcheck | ⟨mem, rfl, hmodRm⟩
    · exact .inl hcheck
    · exact .inr (.inl ⟨mem, _, htarget, hmodRm⟩)
  | withoutModRm hends =>
    rcases bind_eq_error.mp hform with hrex | ⟨rex, -, h⟩
    · exact .inl (rexPrefix_eq_error hrex)
    · cases h
  | fixed hends => cases hform

end Results

end MachineCode.X86
