import MachineCode.Proofs.Session.Encoding
import MachineCode.Proofs.X86.MemoryForms
import MachineCode.X86.Outcome

/-!
# The scale of an address without an index

Such a scale has no meaning, and for most addresses it has no place either. But a base whose code is
4 takes a SIB byte, and there the scale is written all the same. So two addresses that differ in an
unused scale give instructions that differ in this one field, or not at all.
-/

namespace MachineCode.X86

/-- The fields with another scale beside a base that stands alone in SIB. -/
def ModRm.rescale (scale : Fin 4) (fields : ModRm) : ModRm :=
  if fields.sib = some ⟨0, 4, 4⟩ then { fields with sib := some ⟨scale, 4, 4⟩ } else fields

def Layout.rescale (scale : Fin 4) (layout : Layout) : Layout :=
  { layout with modRm := layout.modRm.map (ModRm.rescale scale) }

section Fields

variable {mem : Memory} {scale : UInt8} {field : Fin 4}

theorem Memory.modRm_congr_scaleField (h : { mem with scale }.scaleField? = mem.scaleField?)
    (mode : Mode) (reg : Fin 8) : { mem with scale }.modRm mode reg = mem.modRm mode reg := by
  rw [modRm, modRm, h]
  rfl

theorem Memory.modRm_rescale (hindex : mem.index = none) (hplain : mem.scaleField? = some 0)
    (hscale : { mem with scale }.scaleField? = some field) (mode : Mode) (reg : Fin 8) :
    { mem with scale }.modRm mode reg = (mem.modRm mode reg).map (ModRm.rescale field) := by
  have hfits : { mem with scale }.dispFits = mem.dispFits := rfl
  rw [modRm, modRm, hplain, hscale, hfits]
  obtain ⟨base, index, old, disp, dispBits, width⟩ := mem
  cases hindex
  cases dispFits _ with
  | false => rfl
  | true =>
    cases base with
    | none => cases mode <;> rfl
    | some base =>
      cases hpointer : base.isPointer with
      | true => cases mode <;> simp [hpointer, ModRm.rescale, Except.map, dispBytes]
      | false =>
        have hdisp : dispField ⟨base, none, scale, disp, dispBits, width⟩ base
            = dispField ⟨base, none, old, disp, dispBits, width⟩ base := rfl
        simp only [hpointer, hdisp]
        cases dispField ⟨base, none, old, disp, dispBits, width⟩ base with
        | error code => rfl
        | ok shape =>
          by_cases hcode : base.code = 4 <;>
            simp [modRmWithBase, hcode, ModRm.rescale, Except.map, bind, Except.bind, pure,
              Except.pure]

/-- The fields have a SIB byte for the base alone exactly when the base needs one. -/
theorem Memory.sib_eq_iff (hindex : mem.index = none) (hplain : mem.scaleField? = some 0)
    {mode : Mode} {reg : Fin 8} {fields : ModRm} (h : mem.modRm mode reg = .ok fields) :
    fields.sib = some ⟨0, 4, 4⟩
      ↔ ∃ base, mem.base = some base ∧ base.isPointer = false ∧ base.code = 4 := by
  rw [modRm, hplain] at h
  simp only at h
  split at h
  · cases h
  split at h
  · rename_i hbase
    cases h
    cases mode <;> simp [modRmWithoutBase, hindex, hbase]
  · rename_i base hbase
    split at h
    · rename_i hpointer
      split at h <;> cases h
      simp [hbase, hpointer]
    · rename_i hpointer
      obtain ⟨⟨mod, disp⟩, hdisp, h⟩ := bind_eq_ok.mp h
      cases h
      by_cases hcode : base.code = 4
      · simp [modRmWithBase, hindex, hbase, hcode, hpointer]
      · simp [modRmWithBase, hindex, hbase, hcode]

theorem Memory.isStackBase_iff {mode : Mode} {addressPrefix : Bool} {base : Register}
    (h : mem.addressPrefix mode = .ok addressPrefix) (hbase : mem.base = some base) :
    base.isStackBase ↔ base.isPointer = false ∧ base.code = 4 := by
  obtain ⟨width, hwidth, hcases⟩ := addressPrefix_eq_ok h
  obtain ⟨-, hkind, -⟩ := addressBits_eq_ok hwidth
  rcases hkind base hbase with ⟨hgeneral, rfl⟩ | ⟨hpointer, -⟩
  · have hbits : base.bits = 32 ∨ base.bits = 64 := by
      rcases hcases with ⟨hnone, -⟩ | ⟨-, hsome, -⟩ | ⟨-, hsome, -⟩ | ⟨-, hsome, -⟩
      · cases hnone
      · exact .inr (Option.some.inj hsome)
      · exact .inl (Option.some.inj hsome)
      · exact .inl (Option.some.inj hsome)
    simp [Register.isStackBase, hgeneral, hbits, Register.isPointer_eq_false_of_isGeneral hgeneral]
  · cases base <;> simp_all [Register.isPointer, Register.isStackBase, Register.isGeneral]

end Fields

/-! ### Instructions with a memory operand -/

section Layouts

variable {mode : Mode} {size : OperandSize} {wide : Bool} {opcode : List UInt8}
  {use : RegFieldUse} {immediate : List UInt8} {mem : Memory} {scale : UInt8} {field : Fin 4}
  {layout : Layout}

theorem withModRm_congr_scaleField (h : { mem with scale }.scaleField? = mem.scaleField?) :
    withModRm mode size wide opcode use (.mem { mem with scale }) immediate
      = withModRm mode size wide opcode use (.mem mem) immediate := by
  rw [withModRm, withModRm, Memory.modRm_congr_scaleField h]
  rfl

theorem withModRm_rescale (hindex : mem.index = none) (hplain : mem.scaleField? = some 0)
    (hscale : { mem with scale }.scaleField? = some field) :
    withModRm mode size wide opcode use (.mem { mem with scale }) immediate
      = (withModRm mode size wide opcode use (.mem mem) immediate).map (Layout.rescale field) := by
  have hprefix : { mem with scale }.addressPrefix mode = mem.addressPrefix mode := rfl
  rw [withModRm, withModRm, Memory.modRm_rescale hindex hplain hscale, hprefix]
  cases mem.addressPrefix mode with
  | error code => rfl
  | ok addressPrefix =>
    simp only
    cases rexPrefix mode _ use.regs with
    | error code => rfl
    | ok rex => cases mem.modRm mode use.code <;> rfl

theorem exists_modRm_of_withModRm (hindex : mem.index = none) (hplain : mem.scaleField? = some 0)
    (h : withModRm mode size wide opcode use (.mem mem) immediate = .ok layout) :
    ∃ fields, layout.modRm = some fields
      ∧ (fields.sib = some ⟨0, 4, 4⟩ ↔ mem.base.any Register.isStackBase) := by
  rw [withModRm] at h
  obtain ⟨addressPrefix, haddress, h⟩ := bind_eq_ok.mp h
  obtain ⟨rex, -, h⟩ := bind_eq_ok.mp h
  obtain ⟨fields, hfields, h⟩ := bind_eq_ok.mp h
  cases h
  refine ⟨fields, rfl, (Memory.sib_eq_iff hindex hplain hfields).trans ?_⟩
  cases hbase : mem.base with
  | none => simp
  | some base =>
    rw [Option.any_some, Memory.isStackBase_iff haddress hbase]
    simp

/-- The bytes of the two layouts differ in the scale field of SIB. -/
theorem Layout.exists_bytes_rescale {fields : ModRm} (hmodRm : layout.modRm = some fields)
    (hsib : fields.sib = some ⟨0, 4, 4⟩) (field : Fin 4) :
    ∃ front back, layout.bytes = front ++ 0x24 :: back
      ∧ (layout.rescale field).bytes = front ++ UInt8.ofNat (0x24 + 64 * field) :: back := by
  have hplain : Sib.byte ⟨0, 4, 4⟩ = 0x24 := rfl
  have hscaled : Sib.byte ⟨field, 4, 4⟩ = UInt8.ofNat (0x24 + 64 * field) := by
    revert field
    decide
  refine ⟨(if layout.operandPrefix then [0x66] else [])
    ++ (if layout.addressPrefix then [0x67] else []) ++ (layout.rex.map Rex.byte).toList
    ++ layout.opcode ++ [fields.byte], fields.disp ++ layout.immediate, ?_, ?_⟩
  · simp [bytes, hmodRm, ModRm.bytes, hsib, hplain]
  · rw [← hscaled]
    simp [bytes, rescale, hmodRm, ModRm.bytes, ModRm.rescale, hsib, ModRm.byte]

theorem Layout.rescale_of_sib_ne {fields : ModRm} (hmodRm : layout.modRm = some fields)
    (hsib : fields.sib ≠ some ⟨0, 4, 4⟩) (field : Fin 4) : layout.rescale field = layout := by
  rw [Layout.rescale, hmodRm, Option.map_some, ModRm.rescale, if_neg hsib, ← hmodRm]

theorem Layout.length_bytes_rescale (layout : Layout) (field : Fin 4) :
    (layout.rescale field).bytes.length = layout.bytes.length := by
  cases hmodRm : layout.modRm with
  | none => simp [bytes, rescale, hmodRm]
  | some fields =>
    by_cases hsib : fields.sib = some ⟨0, 4, 4⟩
    · obtain ⟨front, back, hplain, hscaled⟩ := exists_bytes_rescale hmodRm hsib field
      rw [hplain, hscaled, List.length_append, List.length_append, List.length_cons,
        List.length_cons]
    · rw [rescale_of_sib_ne hmodRm hsib]

end Layouts

section Relocated

variable {inst : Instruction} {memory : ResolvedMemory} {address : Memory} {scale : UInt8}
  {field : Fin 4} {layout : Layout}
  (hcount : inst.requested.length ≤ operandLimit) (hmem : ∃ found, .mem found ∈ inst.requested)
  (haddress : readAddress memory = .ok address)

include haddress in
theorem readAddress_rescale (scale : UInt8) :
    readAddress { memory with scale } = .ok { address with scale } := by
  obtain ⟨base, hbase, h⟩ := bind_eq_ok.mp haddress
  obtain ⟨index, hindex, h⟩ := bind_eq_ok.mp h
  cases h
  rw [readAddress, hbase, hindex]
  rfl

include hcount hmem haddress

theorem layoutOf_congr_scaleField (h : { address with scale }.scaleField? = address.scaleField?) :
    layoutOf (inst.relocate { memory with scale }) = layoutOf (inst.relocate memory) := by
  obtain ⟨form, hroutes, hlayout⟩ := exists_routesAddress hcount hmem
  rw [hlayout haddress, hlayout (readAddress_rescale haddress scale)]
  cases hroutes with
  | refused code h => rw [h, h]
  | written size wide opcode use immediate hform =>
    rw [hform, hform]
    exact withModRm_congr_scaleField h

theorem layoutOf_rescale (hindex : address.index = none) (hplain : address.scaleField? = some 0)
    (hscale : { address with scale }.scaleField? = some field) :
    layoutOf (inst.relocate { memory with scale })
      = (layoutOf (inst.relocate memory)).map (Layout.rescale field) := by
  obtain ⟨form, hroutes, hlayout⟩ := exists_routesAddress hcount hmem
  rw [hlayout haddress, hlayout (readAddress_rescale haddress scale)]
  cases hroutes with
  | refused code h =>
    rw [h, h]
    rfl
  | written size wide opcode use immediate hform =>
    rw [hform, hform]
    exact withModRm_rescale hindex hplain hscale

theorem exists_modRm_of_layoutOf (hindex : address.index = none)
    (hplain : address.scaleField? = some 0) (h : layoutOf (inst.relocate memory) = .ok layout) :
    ∃ fields, layout.modRm = some fields
      ∧ (fields.sib = some ⟨0, 4, 4⟩ ↔ address.base.any Register.isStackBase) := by
  obtain ⟨form, hroutes, hlayout⟩ := exists_routesAddress hcount hmem
  rw [hlayout haddress] at h
  cases hroutes with
  | refused code hform =>
    rw [hform] at h
    cases h
  | written size wide opcode use immediate hform =>
    rw [hform] at h
    exact exists_modRm_of_withModRm hindex hplain h

end Relocated

/-! ### Answers -/

theorem DiffersInScale.ne {field : Fin 4} {plain scaled : Except EncodeFailure (List UInt8)}
    (h : DiffersInScale field plain scaled) (hfield : field ≠ 0) : scaled ≠ plain := by
  obtain ⟨front, back, rfl, rfl⟩ := h
  intro heq
  have hbyte := (List.cons.inj (List.append_cancel_left (Except.ok.inj heq))).1
  clear heq
  revert field
  decide

/-- The bytes of a layout, if the buffer has room for them. -/
def answerOf : Except RefusalCode Layout → Except EncodeFailure (List UInt8)
  | .error code => .error (.refused ⟨code⟩)
  | .ok layout =>
    if layout.bytes.length ≤ bufferSize then .ok layout.bytes
    else .error (.refused ⟨.bufferTooShort⟩)

theorem answer_eq_answerOf {inst : Instruction} (hcount : inst.requested.length ≤ operandLimit)
    (buffer : Vector UInt8 bufferSize) :
    engine.answer inst buffer = answerOf (layoutOf inst) := by
  have hemit : engine.emit (engine.prepare inst) buffer = emit inst buffer := rfl
  have hcarried : ¬ operandLimit < inst.operandCount := Nat.not_lt.mpr hcount
  rw [Engine.answer, hemit, emit, encode, if_neg hcarried]
  cases layoutOf inst with
  | error code => rfl
  | ok layout =>
    by_cases hroom : layout.bytes.length ≤ bufferSize
    · simp only [if_pos hroom, answerOf, Nat.min_eq_left hroom]
      rw [toList_take_overwrite buffer hroom]
    · simp only [if_neg hroom, answerOf]
      rfl

theorem relocate_count {inst : Instruction} (hcount : inst.requested.length ≤ operandLimit)
    (memory : ResolvedMemory) : (inst.relocate memory).requested.length ≤ operandLimit := by
  rwa [Instruction.relocate, List.length_map]

section Answers

variable {inst : Instruction} {memory : ResolvedMemory} {address : Memory} {scale : UInt8}
  {field : Fin 4} (hcount : inst.requested.length ≤ operandLimit)
  (hmem : ∃ found, .mem found ∈ inst.requested) (haddress : readAddress memory = .ok address)
  (buffer : Vector UInt8 bufferSize)
include hcount hmem haddress

theorem answer_congr_scaleField (h : { address with scale }.scaleField? = address.scaleField?) :
    engine.answer (inst.relocate { memory with scale }) buffer
      = engine.answer (inst.relocate memory) buffer := by
  rw [answer_eq_answerOf (relocate_count hcount _), answer_eq_answerOf (relocate_count hcount _),
    layoutOf_congr_scaleField hcount hmem haddress h]

variable (hindex : address.index = none) (hplain : address.scaleField? = some 0)
  (hscale : { address with scale }.scaleField? = some field)
include hindex hplain hscale

/-- An unused scale is written for a base that takes a SIB byte. -/
theorem answer_differsInScale (hbase : address.base.any Register.isStackBase)
    (hok : ∃ bytes, engine.answer (inst.relocate memory) buffer = .ok bytes) :
    DiffersInScale field (engine.answer (inst.relocate memory) buffer)
      (engine.answer (inst.relocate { memory with scale }) buffer) := by
  rw [answer_eq_answerOf (relocate_count hcount _)] at hok
  rw [answer_eq_answerOf (relocate_count hcount _), answer_eq_answerOf (relocate_count hcount _),
    layoutOf_rescale hcount hmem haddress hindex hplain hscale]
  cases hlayout : layoutOf (inst.relocate memory) with
  | error code =>
    rw [hlayout] at hok
    obtain ⟨bytes, hok⟩ := hok
    cases hok
  | ok layout =>
    obtain ⟨fields, hmodRm, hsib⟩ :=
      exists_modRm_of_layoutOf hcount hmem haddress hindex hplain hlayout
    obtain ⟨front, back, hbytes, hscaled⟩ :=
      Layout.exists_bytes_rescale hmodRm (hsib.mpr hbase) field
    rw [hlayout] at hok
    by_cases hroom : layout.bytes.length ≤ bufferSize
    · have hroom' := (layout.length_bytes_rescale field).trans_le hroom
      refine ⟨front, back, ?_, ?_⟩
      · rw [answerOf, if_pos hroom, hbytes]
      · rw [Except.map, answerOf, if_pos hroom', hscaled]
    · rw [answerOf, if_neg hroom] at hok
      obtain ⟨bytes, hok⟩ := hok
      cases hok

theorem answer_congr_unusedScale
    (h : ¬ (address.base.any Register.isStackBase
      ∧ ∃ bytes, engine.answer (inst.relocate memory) buffer = .ok bytes)) :
    engine.answer (inst.relocate { memory with scale }) buffer
      = engine.answer (inst.relocate memory) buffer := by
  rw [answer_eq_answerOf (relocate_count hcount _)] at h ⊢
  rw [answer_eq_answerOf (relocate_count hcount _),
    layoutOf_rescale hcount hmem haddress hindex hplain hscale]
  cases hlayout : layoutOf (inst.relocate memory) with
  | error code => rfl
  | ok layout =>
    obtain ⟨fields, hmodRm, hsib⟩ :=
      exists_modRm_of_layoutOf hcount hmem haddress hindex hplain hlayout
    rw [hlayout] at h
    by_cases hroom : layout.bytes.length ≤ bufferSize
    · have hbase : fields.sib ≠ some ⟨0, 4, 4⟩ :=
        fun heq => h ⟨hsib.mp heq, _, if_pos hroom⟩
      rw [Except.map, Layout.rescale_of_sib_ne hmodRm hbase]
    · have hroom' : ¬ (layout.rescale field).bytes.length ≤ bufferSize := by
        rwa [layout.length_bytes_rescale field]
      rw [Except.map, answerOf, answerOf, if_neg hroom, if_neg hroom']

end Answers

end MachineCode.X86
