import MachineCode.Proofs.X86.ReadBack
import MachineCode.Proofs.X86.Tables

/-!
# Where the address of an operand goes

No form looks into the address of a memory operand. It checks the width of the access and hands the
address on to ModR/M, or it refuses the operands, whatever the address is. So another address
changes no more of an instruction than it changes of ModR/M and its prefixes.
-/

namespace MachineCode.X86

/-- The operand with its memory, if it has one, at another address. -/
def Operand.relocate (address : Memory) : Operand → Operand
  | .mem found => .mem { address with width := found.width }
  | op => op

/-- A form, as a function of the address: refused for every address, or written with every address
as the target of ModR/M. -/
inductive RoutesAddress (mode : Mode) (form : Memory → Except RefusalCode Layout) : Prop where
  | refused (code : RefusalCode) (h : ∀ address, form address = .error code)
  | written (size : OperandSize) (wide : Bool) (opcode : List UInt8) (field : RegFieldUse)
      (immediate : List UInt8)
      (h : ∀ address, form address
        = withModRm mode size wide opcode field (.mem address) immediate)

namespace RoutesAddress

variable {mode : Mode}

theorem error (code : RefusalCode) : RoutesAddress mode fun _ => .error code :=
  .refused code fun _ => rfl

theorem withModRm (width : UInt16) (size : OperandSize) (wide : Bool) (opcode : List UInt8)
    (field : RegFieldUse) (immediate : List UInt8) :
    RoutesAddress mode fun address =>
      X86.withModRm mode size wide opcode field (.mem { address with width }) immediate :=
  .written size wide opcode field immediate fun _ => rfl

theorem bind {α : Type} (check : Except RefusalCode α)
    {form : α → Memory → Except RefusalCode Layout}
    (h : ∀ a, check = .ok a → RoutesAddress mode (form a)) :
    RoutesAddress mode fun address => check >>= fun a => form a address := by
  cases check with
  | error code => exact error code
  | ok a => exact h a rfl

theorem regOrMem {width : UInt16} {size : OperandSize}
    {form : RegOrMem → Except RefusalCode Layout}
    (h : RoutesAddress mode fun address => form (.mem { address with width })) :
    RoutesAddress mode fun address =>
      checkRegOrMem mode size (.mem { address with width }) >>= form := by
  by_cases hwidth : width.toNat = size.bits
  · have hchecked (address : Memory) :
        checkRegOrMem mode size (.mem { address with width }) = .ok (.mem { address with width }) :=
      if_neg fun hne => hne hwidth
    simp only [hchecked]
    exact h
  · have hrefused (address : Memory) :
        checkRegOrMem mode size (.mem { address with width }) = .error .operandSizeMismatch :=
      if_pos hwidth
    simp only [hrefused]
    exact error .operandSizeMismatch

theorem ite {p : Prop} [Decidable p] {first second : Memory → Except RefusalCode Layout}
    (hfirst : RoutesAddress mode first) (hsecond : RoutesAddress mode second) :
    RoutesAddress mode fun address => if p then first address else second address := by
  by_cases hp : p
  · simpa only [if_pos hp] using hfirst
  · simpa only [if_neg hp] using hsecond

end RoutesAddress

namespace Setting

section Families

variable {setting : Setting} {ops : List Operand}

/-- The form of a list of operands routes the address of their memory. -/
def Routes (setting : Setting) (ops : List Operand)
    (form : List Operand → Except RefusalCode Layout) : Prop :=
  RoutesAddress setting.mode fun address => form (ops.map (Operand.relocate address))

theorem modRmForm_routes (width : UInt16) (opcode : Nat) (field : RegFieldUse)
    (immediate : List UInt8) :
    RoutesAddress setting.mode fun address =>
      setting.modRmForm opcode field (.mem { address with width }) immediate :=
  .withModRm _ _ _ _ _ _

theorem regPairForm_routes (width : UInt16) (opcode : Nat) (reg : Register) :
    RoutesAddress setting.mode fun address =>
      setting.regPairForm opcode reg (.mem { address with width }) :=
  .bind _ fun _ _ => .regOrMem (modRmForm_routes _ _ _ _)

theorem alu_routes (op : AluOp) (hmem : ∃ mem, .mem mem ∈ ops) :
    setting.Routes ops (setting.alu op) := by
  rcases ops with _ | ⟨first, _ | ⟨second, _ | ⟨third, rest⟩⟩⟩
  · exact .error .badOperandCount
  · cases first <;> exact .error .badOperandCount
  · cases first with
    | reg dst =>
      cases second with
      | mem src => exact regPairForm_routes _ _ dst
      | _ => exact absurd hmem (by simp)
    | mem dst =>
      cases second with
      | reg src => exact regPairForm_routes _ _ src
      | imm value bits =>
        refine .regOrMem (.ite ?_ (.ite ?_ (.error _)))
        · exact modRmForm_routes _ _ _ _
        · exact modRmForm_routes _ _ _ _
      | _ => exact .error .noMatchingForm
    | _ => cases second <;> exact .error .noMatchingForm
  · cases first <;> cases second <;> exact .error .badOperandCount

theorem mov_routes (hmem : ∃ mem, .mem mem ∈ ops) : setting.Routes ops setting.mov := by
  rcases ops with _ | ⟨first, _ | ⟨second, _ | ⟨third, rest⟩⟩⟩
  · exact .error .badOperandCount
  · cases first <;> exact .error .badOperandCount
  · cases first with
    | reg dst =>
      cases second with
      | mem src => exact regPairForm_routes _ _ dst
      | _ => exact absurd hmem (by simp)
    | mem dst =>
      cases second with
      | reg src => exact regPairForm_routes _ _ src
      | imm value bits => exact .ite (.regOrMem (modRmForm_routes _ _ _ _)) (.error _)
      | _ => exact .error .noMatchingForm
    | _ => cases second <;> exact .error .noMatchingForm
  · cases first <;> cases second <;> exact .error .badOperandCount

theorem lea_routes (hmem : ∃ mem, .mem mem ∈ ops) : setting.Routes ops setting.lea := by
  rcases ops with _ | ⟨first, _ | ⟨second, _ | ⟨third, rest⟩⟩⟩
  · exact .error .badOperandCount
  · cases first <;> exact .error .badOperandCount
  · cases first with
    | reg dst =>
      cases second with
      | mem src => exact .ite (.error _) (.bind _ fun _ _ => modRmForm_routes _ _ _ _)
      | _ => exact absurd hmem (by simp)
    | _ => cases second <;> exact .error .noMatchingForm
  · cases first <;> cases second <;> exact .error .badOperandCount

theorem test_routes (hmem : ∃ mem, .mem mem ∈ ops) : setting.Routes ops setting.test := by
  rcases ops with _ | ⟨first, _ | ⟨second, _ | ⟨third, rest⟩⟩⟩
  · exact .error .badOperandCount
  · cases first <;> exact .error .badOperandCount
  · cases first with
    | reg left =>
      cases second with
      | mem right => exact regPairForm_routes _ _ left
      | _ => exact absurd hmem (by simp)
    | mem left =>
      cases second with
      | reg right => exact regPairForm_routes _ _ right
      | imm value bits => exact .ite (.regOrMem (modRmForm_routes _ _ _ _)) (.error _)
      | _ => exact .error .noMatchingForm
    | _ => cases second <;> first | exact .error .noMatchingForm | exact .ite (.error _) (.error _)
  · cases first <;> cases second <;> exact .error .badOperandCount

theorem step_routes (op : StepOp) (hmem : ∃ mem, .mem mem ∈ ops) :
    setting.Routes ops (setting.step op) := by
  rcases ops with _ | ⟨dst, _ | ⟨second, rest⟩⟩
  · exact .error .badOperandCount
  · cases dst with
    | mem dst => exact .regOrMem (modRmForm_routes _ _ _ _)
    | _ => exact absurd hmem (by simp)
  · exact .error .badOperandCount

theorem unary_routes (op : UnaryOp) (hmem : ∃ mem, .mem mem ∈ ops) :
    setting.Routes ops (setting.unary op) := by
  rcases ops with _ | ⟨dst, _ | ⟨second, rest⟩⟩
  · exact .error .badOperandCount
  · cases dst with
    | mem dst => exact .regOrMem (modRmForm_routes _ _ _ _)
    | _ => exact absurd hmem (by simp)
  · exact .error .badOperandCount

theorem shift_routes (op : ShiftOp) (hmem : ∃ mem, .mem mem ∈ ops) :
    setting.Routes ops (setting.shift op) := by
  rcases ops with _ | ⟨dst, _ | ⟨count, _ | ⟨third, rest⟩⟩⟩
  · exact .error .badOperandCount
  · exact .error .badOperandCount
  · cases dst with
    | mem dst =>
      cases count with
      | imm value bits => exact .regOrMem (.ite (modRmForm_routes _ _ _ _) (.error _))
      | reg reg => exact .regOrMem (.ite (modRmForm_routes _ _ _ _) (.error _))
      | _ => exact .regOrMem (.error .noMatchingForm)
    | reg dst =>
      refine .bind (checkRegOrMem _ _ (.reg dst)) fun target _ => ?_
      cases count with
      | mem count => exact .error .noMatchingForm
      | _ => exact absurd hmem (by simp)
    | _ => exact .error .noMatchingForm
  · exact .error .badOperandCount

theorem push_routes (hmem : ∃ mem, .mem mem ∈ ops) : setting.Routes ops setting.push := by
  refine .bind setting.stackSize fun size _ => ?_
  rcases ops with _ | ⟨first, _ | ⟨second, rest⟩⟩
  · exact .error .badOperandCount
  · cases first with
    | mem mem => exact .regOrMem (.withModRm _ _ _ _ _ _)
    | _ => exact absurd hmem (by simp)
  · cases first <;> exact .error .badOperandCount

theorem pop_routes (hmem : ∃ mem, .mem mem ∈ ops) : setting.Routes ops setting.pop := by
  refine .bind setting.stackSize fun size _ => ?_
  rcases ops with _ | ⟨first, _ | ⟨second, rest⟩⟩
  · exact .error .badOperandCount
  · cases first with
    | mem mem => exact .regOrMem (.withModRm _ _ _ _ _ _)
    | _ => exact absurd hmem (by simp)
  · cases first <;> exact .error .badOperandCount

theorem imul_routes (hmem : ∃ mem, .mem mem ∈ ops) : setting.Routes ops setting.imul := by
  refine .ite (.error _) ?_
  rcases ops with _ | ⟨dst, _ | ⟨src, _ | ⟨third, _ | ⟨fourth, rest⟩⟩⟩⟩
  · exact .error .badOperandCount
  · cases dst <;> exact .error .badOperandCount
  · cases dst with
    | reg dst =>
      refine .bind (setting.register dst) fun dst _ => ?_
      cases src with
      | mem src => exact .regOrMem (.withModRm _ _ _ _ _ _)
      | _ => exact absurd hmem (by simp)
    | _ => exact .error .noMatchingForm
  · cases dst with
    | reg dst =>
      cases third with
      | imm value bits =>
        refine .bind (setting.register dst) fun dst _ => ?_
        cases src with
        | mem src =>
          refine .regOrMem (.ite ?_ (.ite ?_ (.error _)))
          · exact modRmForm_routes _ _ _ _
          · exact modRmForm_routes _ _ _ _
        | _ => exact absurd hmem (by simp)
      | _ => exact .error .noMatchingForm
    | _ => exact .error .noMatchingForm
  · cases dst <;> cases third <;> exact .error .badOperandCount

theorem branch_routes (short : Option UInt8) (near : List UInt8) (digit : Fin 8)
    (hmem : ∃ mem, .mem mem ∈ ops) : setting.Routes ops (setting.branch short near digit) := by
  rcases ops with _ | ⟨first, _ | ⟨second, rest⟩⟩
  · exact .error .badOperandCount
  · cases first with
    | mem mem => exact .regOrMem (.withModRm _ _ _ _ _ _)
    | _ => exact absurd hmem (by simp)
  · cases first <;> exact .error .badOperandCount

theorem jumpIf_routes (condition : Fin 16) (hmem : ∃ mem, .mem mem ∈ ops) :
    setting.Routes ops (setting.jumpIf condition) := by
  rcases ops with _ | ⟨first, _ | ⟨second, rest⟩⟩
  · exact .error .badOperandCount
  · cases first with
    | mem mem => exact .error .noMatchingForm
    | _ => exact absurd hmem (by simp)
  · cases first <;> exact .error .badOperandCount

theorem interruptForm_routes (hmem : ∃ mem, .mem mem ∈ ops) :
    setting.Routes ops interruptForm := by
  rcases ops with _ | ⟨first, _ | ⟨second, rest⟩⟩
  · exact .error .badOperandCount
  · cases first with
    | mem mem => exact .error .noMatchingForm
    | _ => exact absurd hmem (by simp)
  · cases first <;> exact .error .badOperandCount

theorem systemForm_routes (op : SystemOp) (hmem : ∃ mem, .mem mem ∈ ops) :
    setting.Routes ops (systemForm op) := by
  rcases ops with _ | ⟨first, rest⟩
  · exact absurd hmem (by simp)
  · exact .error .badOperandCount

/-- Every operation refuses its memory operand or writes the address with ModR/M. -/
theorem layout_routes (operation : Operation) (hmem : ∃ mem, .mem mem ∈ ops) :
    setting.Routes ops (setting.layout operation) := by
  cases operation with
  | alu op => exact alu_routes op hmem
  | mov => exact mov_routes hmem
  | lea => exact lea_routes hmem
  | test => exact test_routes hmem
  | step op => exact step_routes op hmem
  | unary op => exact unary_routes op hmem
  | shift op => exact shift_routes op hmem
  | push => exact push_routes hmem
  | pop => exact pop_routes hmem
  | imul => exact imul_routes hmem
  | jmp => exact branch_routes _ _ _ hmem
  | call => exact branch_routes _ _ _ hmem
  | jumpIf condition => exact jumpIf_routes condition hmem
  | int => exact interruptForm_routes hmem
  | system op => exact systemForm_routes op hmem

end Families

end Setting

/-! ### Instructions -/

/-- The address of a memory operand, with its registers looked up. -/
def readAddress (memory : ResolvedMemory) : Except RefusalCode Memory := do
  let base ← readAddressRegister memory.base
  let index ← readAddressRegister memory.index
  return { memory with base, index }

section Reading

variable {memory : ResolvedMemory} {address : Memory} {asked : List ResolvedOperand}

theorem readOperand_relocate (h : readAddress memory = .ok address) (op : ResolvedOperand) :
    readOperand (op.relocate memory)
      = (readOperand (op.relocate .nowhere)).map (Operand.relocate address) := by
  cases op with
  | mem found =>
    obtain ⟨base, hbase, h⟩ := bind_eq_ok.mp h
    obtain ⟨index, hindex, h⟩ := bind_eq_ok.mp h
    cases h
    rw [ResolvedOperand.relocate, readOperand]
    simp only [hbase, hindex]
    rfl
  | reg id =>
    simp only [ResolvedOperand.relocate, readOperand]
    cases readRegister id <;> rfl
  | unsigned | signed | relative => rfl

theorem mapM_readOperand_relocate (h : readAddress memory = .ok address)
    (asked : List ResolvedOperand) :
    (asked.map (ResolvedOperand.relocate memory)).mapM readOperand
      = ((asked.map (ResolvedOperand.relocate .nowhere)).mapM readOperand).map
          (List.map (Operand.relocate address)) := by
  induction asked with
  | nil => rfl
  | cons op asked ih =>
    rw [List.map_cons, List.map_cons, List.mapM_cons, List.mapM_cons, ih, readOperand_relocate h]
    cases readOperand (op.relocate .nowhere) with
    | error code => rfl
    | ok op => cases (asked.map (ResolvedOperand.relocate .nowhere)).mapM readOperand <;> rfl

theorem exists_mem_of_mapM_readOperand {ops : List Operand}
    (hmem : ∃ found, .mem found ∈ asked) (h : asked.mapM readOperand = .ok ops) :
    ∃ mem, .mem mem ∈ ops := by
  obtain ⟨found, hfound⟩ := hmem
  obtain ⟨op, hop, hread⟩ := (exists_mem_of_mapM_eq_ok h).1 (.mem found) hfound
  obtain ⟨base, -, hread⟩ := bind_eq_ok.mp hread
  obtain ⟨index, -, hread⟩ := bind_eq_ok.mp hread
  cases hread
  exact ⟨_, hop⟩

/-- An instruction with a memory operand is a form of its address. -/
theorem exists_routesAddress {inst : Instruction} (hcount : inst.requested.length ≤ operandLimit)
    (hmem : ∃ found, .mem found ∈ inst.requested) :
    ∃ form, RoutesAddress inst.mode form ∧ ∀ {memory address}, readAddress memory = .ok address →
      layoutOf (inst.relocate memory) = form address := by
  cases hclass : mnemonic? inst.cls with
  | none =>
    refine ⟨_, .error .badClass, fun {memory address} _ => ?_⟩
    rw [layoutOf, Instruction.relocate]
    simp only [hclass]
  | some entry =>
    let reading := (inst.requested.map (ResolvedOperand.relocate .nowhere)).mapM readOperand
    let form (address : Memory) : Except RefusalCode Layout := reading >>= fun ops =>
      Setting.ofBits inst.mode inst.operandBits >>= fun setting =>
        setting.layout entry.2 (ops.map (Operand.relocate address))
    refine ⟨form, ?_, fun {memory address} haddress => ?_⟩
    · refine .bind reading fun ops hops => .bind _ fun setting hsetting => ?_
      obtain ⟨found, hfound⟩ := hmem
      have hmoved : ∃ moved,
          ResolvedOperand.mem moved ∈ inst.requested.map (ResolvedOperand.relocate .nowhere) :=
        ⟨_, List.mem_map.mpr ⟨_, hfound, rfl⟩⟩
      have hread := exists_mem_of_mapM_readOperand hmoved hops
      have hroutes : setting.Routes ops (setting.layout entry.2) :=
        Setting.layout_routes entry.2 hread
      rwa [Setting.Routes, Setting.mode_of_ofBits hsetting] at hroutes
    · have hcarried : (inst.relocate memory).operands
          = inst.requested.map (ResolvedOperand.relocate memory) := by
        apply List.take_of_length_le
        rwa [Instruction.relocate, List.length_map]
      have hcls : mnemonic? (inst.relocate memory).cls = some entry := hclass
      rw [layoutOf, hcls]
      simp only [hcarried, mapM_readOperand_relocate haddress, form, reading]
      cases (inst.requested.map (ResolvedOperand.relocate .nowhere)).mapM readOperand <;> rfl

end Reading

end MachineCode.X86
