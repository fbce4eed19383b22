import MachineCode.Proofs.X86.Forms
import MachineCode.X86.Writing

/-!
# Steps that write a layout

The scratch area grows from the front of a layout to all of it. A check is asked alike by the steps
and by the form, so the two go on or are refused together. A step that pushes needs room, and the
sum of the parts of an instruction leaves it: thirteen bytes at most, since the prefix 66 comes only
with a short immediate and a second opcode byte with none.
-/

namespace MachineCode.X86

def longestInstruction : Nat := 13

namespace Writing

variable {room : Nat} {front : List UInt8} {form : Except RefusalCode Layout}

/-- Steps end with the bytes of the layout in the scratch area, or with the refusal of the form,
and either way with the given output. -/
inductive EndsAs (output : Vector UInt8 room) :
    EStateM.Result Stop (Workspace room) Unit → Except RefusalCode Layout → Prop where
  | written (layout : Layout) : EndsAs output (.ok () ⟨layout.bytes, output⟩) (.ok layout)
  | refused (code : RefusalCode) (left : List UInt8) :
      EndsAs output (.error (.fault (.refused ⟨code⟩)) ⟨left, output⟩) (.error code)

/-- From a scratch area with these bytes the steps arrive at those of the layout, or are refused as
the form is. They leave the output alone. -/
def Fills (steps : Writing room Unit) (front : List UInt8) (form : Except RefusalCode Layout) :
    Prop :=
  ∀ output, EndsAs output (steps ⟨front, output⟩) form

/-! ### Steps -/

theorem push_eq (byte : UInt8) (hroom : front.length < scratchSize) (output : Vector UInt8 room) :
    push byte ⟨front, output⟩ = .ok () ⟨front ++ [byte], output⟩ := by
  have hget : (push byte : Writing room Unit) ⟨front, output⟩
      = (if front.length < scratchSize then set (Workspace.mk (front ++ [byte]) output)
          else crash .scratchFull : Writing room Unit) ⟨front, output⟩ := rfl
  rw [hget, if_pos hroom]
  rfl

theorem pushAll_eq {bytes : List UInt8} (hroom : front.length + bytes.length ≤ scratchSize)
    (output : Vector UInt8 room) :
    pushAll bytes ⟨front, output⟩ = .ok () ⟨front ++ bytes, output⟩ := by
  induction bytes generalizing front with
  | nil =>
    rw [List.append_nil]
    rfl
  | cons byte bytes ih =>
    rw [List.length_cons] at hroom
    have hrest : (pushAll bytes : Writing room Unit) ⟨front ++ [byte], output⟩
        = .ok () ⟨(front ++ [byte]) ++ bytes, output⟩ := by
      apply ih
      rw [List.length_append, List.length_singleton]
      omega
    rw [pushAll]
    change EStateM.bind (push byte) (fun _ => pushAll bytes) ⟨front, output⟩ = _
    rw [EStateM.bind, push_eq byte (by omega)]
    rw [List.append_assoc] at hrest
    exact hrest

theorem pushAll_append (first second : List UInt8) :
    (pushAll (first ++ second) : Writing room Unit)
      = pushAll first >>= fun _ => pushAll second := by
  induction first with
  | nil => rfl
  | cons byte first ih =>
    rw [List.cons_append, pushAll, pushAll, bind_assoc, ih]

theorem push_eq_pushAll (byte : UInt8) : (push byte : Writing room Unit) = pushAll [byte] := by
  rw [pushAll, pushAll]
  exact bind_pure_unit.symm

theorem pushWhen_eq_pushAll (wanted : Bool) (byte : UInt8) :
    (pushWhen wanted byte : Writing room Unit) = pushAll (if wanted then [byte] else []) := by
  cases wanted with
  | false => rfl
  | true => exact push_eq_pushAll byte

theorem opcodeByte_eq_pure {sum : Nat} (hsum : sum < 256) :
    (opcodeByte sum : Writing room UInt8) = pure (UInt8.ofNat sum) :=
  if_pos hsum

theorem pushImmediate_eq_pushAll {value : UInt64} {bits : UInt8} (hbits : bits.toNat ≤ 64) :
    (pushImmediate value bits : Writing room Unit) = pushAll (immediateBytes value bits) :=
  if_pos (show bits.toNat / 8 ≤ 8 by omega)

-- A field of nine bytes would be cut from the eight bytes of a value.
example : ∃ left, (pushImmediate 0 72 : Writing 0 Unit) ⟨[], #v[]⟩
    = .error (.crash .fieldTooWide) left :=
  ⟨_, rfl⟩

namespace Fills

theorem refuse (code : RefusalCode) :
    Fills (Writing.refuse code : Writing room Unit) front (.error code) :=
  fun _ => .refused code front

theorem check {α : Type} {result : Except RefusalCode α} {steps : α → Writing room Unit}
    {forms : α → Except RefusalCode Layout}
    (h : ∀ a, result = .ok a → Fills (steps a) front (forms a)) :
    Fills (Writing.check result >>= steps) front (result >>= forms) := by
  cases result with
  | error code => exact fun _ => .refused code front
  | ok a => exact h a rfl

theorem pushAll_bind {bytes : List UInt8} {steps : Unit → Writing room Unit}
    (hroom : front.length + bytes.length ≤ scratchSize)
    (h : Fills (steps ()) (front ++ bytes) form) :
    Fills (pushAll bytes >>= steps) front form := by
  intro output
  change EndsAs output (EStateM.bind (Writing.pushAll bytes) steps ⟨front, output⟩) form
  rw [EStateM.bind, pushAll_eq hroom]
  exact h output

theorem pushAll {bytes : List UInt8} {layout : Layout}
    (hroom : front.length + bytes.length ≤ scratchSize) (hbytes : layout.bytes = front ++ bytes) :
    Fills (Writing.pushAll bytes : Writing room Unit) front (.ok layout) := by
  intro output
  rw [pushAll_eq hroom, ← hbytes]
  exact .written layout

end Fills

/-! ### Whole layouts -/

/-- The steps write the layout of the form from an empty scratch area, and the layout is neither
empty nor longer than an instruction can be. -/
structure Written (steps : Writing room Unit) (form : Except RefusalCode Layout) : Prop where
  fills : Fills steps [] form
  length : ∀ layout, form = .ok layout →
    1 ≤ layout.bytes.length ∧ layout.bytes.length ≤ longestInstruction

namespace Written

theorem refuse (code : RefusalCode) :
    Written (Writing.refuse code : Writing room Unit) (.error code) :=
  ⟨.refuse code, nofun⟩

theorem check {α : Type} {result : Except RefusalCode α} {steps : α → Writing room Unit}
    {forms : α → Except RefusalCode Layout}
    (h : ∀ a, result = .ok a → Written (steps a) (forms a)) :
    Written (Writing.check result >>= steps) (result >>= forms) := by
  refine ⟨.check fun a ha => (h a ha).fills, fun layout hlayout => ?_⟩
  obtain ⟨a, ha, hform⟩ := bind_eq_ok.mp hlayout
  exact (h a ha).length layout hform

theorem ite {p : Prop} [Decidable p] {first second : Writing room Unit}
    {firstForm secondForm : Except RefusalCode Layout}
    (hfirst : p → Written first firstForm) (hsecond : ¬p → Written second secondForm) :
    Written (if p then first else second) (if p then firstForm else secondForm) := by
  by_cases hp : p
  · rw [if_pos hp, if_pos hp]
    exact hfirst hp
  · rw [if_neg hp, if_neg hp]
    exact hsecond hp

theorem pushAll {bytes : List UInt8} {layout : Layout} (hbytes : layout.bytes = bytes)
    (hne : bytes ≠ []) (hlength : bytes.length ≤ longestInstruction) :
    Written (Writing.pushAll bytes : Writing room Unit) (.ok layout) := by
  have hscratch : ([] : List UInt8).length + bytes.length ≤ scratchSize := by
    rw [longestInstruction] at hlength
    rw [List.length_nil, scratchSize]
    omega
  refine ⟨.pushAll hscratch hbytes, ?_⟩
  rintro _ ⟨⟩
  rw [hbytes]
  exact ⟨List.length_pos_iff.mpr hne, hlength⟩

end Written

end Writing

/-! ### Lengths of the parts -/

/-- The number of bytes that the prefix 66 takes at this size. -/
def OperandSize.prefixLength (size : OperandSize) : Nat := (decide (size = .word)).toNat

theorem length_flag (wanted : Bool) (byte : UInt8) :
    (if wanted then [byte] else []).length = wanted.toNat := by
  cases wanted <;> rfl

theorem OperandSize.length_prefix (size : OperandSize) :
    (if decide (size = .word) then [(0x66 : UInt8)] else []).length = size.prefixLength :=
  length_flag _ _

theorem OperandSize.prefixLength_add_immediateBits (size : OperandSize) :
    size.prefixLength + size.immediateBits / 8 ≤ 4 := by
  cases size <;> decide

theorem length_rex_le (rex : Option Rex) : (rex.map Rex.byte).toList.length ≤ 1 := by
  cases rex <;> simp

theorem length_immediateBytes (value : UInt64) (bits : UInt8) :
    (immediateBytes value bits).length = bits.toNat / 8 :=
  length_littleEndian _ _

theorem Layout.length_bytes (layout : Layout) :
    layout.bytes.length = layout.operandPrefix.toNat + layout.addressPrefix.toNat
      + (layout.rex.map Rex.byte).toList.length + layout.opcode.length
      + ((layout.modRm.map ModRm.bytes).getD []).length + layout.immediate.length := by
  simp only [bytes, List.length_append, length_flag]

theorem ModRm.length_bytes_le {fields : ModRm} (h : fields.disp.length ≤ 4) :
    fields.bytes.length ≤ 6 := by
  rw [bytes, List.length_append, List.length_cons, Option.toList_map, List.length_map]
  have hsib : fields.sib.toList.length ≤ 1 := by cases fields.sib <;> simp
  omega

theorem Memory.length_dispField_le {mem : Memory} {base : Register} {mod : Fin 4}
    {disp : List UInt8} (h : mem.dispField base = .ok (mod, disp)) : disp.length ≤ 4 := by
  rw [dispField] at h
  split at h
  · split at h
    · cases h
    · split at h <;> cases h <;> simp [dispBytes]
  · split at h <;> cases h
    simp [dispBytes]
  · cases h
    simp [dispBytes]
  · cases h

/-- ModR/M, SIB and a displacement of four bytes. -/
theorem Memory.length_modRm_le {mem : Memory} {mode : Mode} {reg : Fin 8} {fields : ModRm}
    (h : mem.modRm mode reg = .ok fields) : fields.bytes.length ≤ 6 := by
  apply ModRm.length_bytes_le
  rw [modRm] at h
  split at h
  · cases h
  split at h
  · cases h
  split at h
  · cases h
    unfold modRmWithoutBase
    split <;> simp [dispBytes]
  · split at h
    · split at h <;> cases h
      simp [dispBytes]
    · obtain ⟨⟨mod, disp⟩, hdisp, h⟩ := bind_eq_ok.mp h
      cases h
      unfold modRmWithBase
      split
      · exact length_dispField_le hdisp
      · split <;> exact length_dispField_le hdisp

/-! ### The two shapes -/

namespace Writing

section Shapes

variable {room : Nat} {mode : Mode} {size : OperandSize} {wide : Bool} {immediate : List UInt8}

theorem fills_modRm {opcode : List UInt8} {field : RegFieldUse} {target : RegOrMem}
    (hlength : size.prefixLength + opcode.length + immediate.length ≤ 5) :
    Fills (modRm mode size wide opcode field target >>= fun _ => pushAll immediate
      : Writing room Unit) [] (withModRm mode size wide opcode field target immediate) := by
  have hprefix := size.length_prefix
  cases target with
  | reg reg =>
    rw [modRm, withModRm]
    simp only [bind_assoc, pushWhen_eq_pushAll]
    refine .pushAll_bind ?_ (.check fun rex _ => ?_)
    · simp only [List.length_nil, scratchSize]
      omega
    have hrex := length_rex_le rex
    have hfields : (ModRm.bytes { mod := 3, reg := field.code, rm := reg.code }).length = 1 := rfl
    refine .pushAll_bind ?_ (.pushAll_bind ?_ (.pushAll_bind ?_ (.pushAll ?_ ?_)))
    case refine_5 => simp [Layout.bytes]
    all_goals
      simp only [List.length_append, List.length_nil, scratchSize]
      omega
  | mem mem =>
    rw [modRm, withModRm]
    simp only [bind_assoc, pushWhen_eq_pushAll]
    refine .check fun addressPrefix _ => ?_
    have haddress : (if addressPrefix then [(0x67 : UInt8)] else []).length ≤ 1 := by
      rw [length_flag]
      exact addressPrefix.toNat_le
    refine .pushAll_bind ?_ (.pushAll_bind ?_ (.check fun rex _ => ?_))
    · simp only [List.length_nil, scratchSize]
      omega
    · simp only [List.length_append, List.length_nil, scratchSize]
      omega
    have hrex := length_rex_le rex
    refine .pushAll_bind ?_ (.pushAll_bind ?_ (.check fun fields hfields => ?_))
    · simp only [List.length_append, List.length_nil, scratchSize]
      omega
    · simp only [List.length_append, List.length_nil, scratchSize]
      omega
    have hfields := Memory.length_modRm_le hfields
    refine .pushAll_bind ?_ (.pushAll ?_ ?_)
    · simp only [List.length_append, List.length_nil, scratchSize]
      omega
    · simp only [List.length_append, List.length_nil, scratchSize]
      omega
    · simp [Layout.bytes]

theorem length_withModRm {opcode : List UInt8} {field : RegFieldUse} {target : RegOrMem}
    {layout : Layout} (hopcode : opcode ≠ [])
    (hlength : size.prefixLength + opcode.length + immediate.length ≤ 5)
    (h : withModRm mode size wide opcode field target immediate = .ok layout) :
    1 ≤ layout.bytes.length ∧ layout.bytes.length ≤ longestInstruction := by
  have hpos : 0 < opcode.length := List.length_pos_iff.mpr hopcode
  rw [longestInstruction, layout.length_bytes]
  rw [OperandSize.prefixLength] at hlength
  cases target with
  | reg reg =>
    obtain ⟨rex, -, h⟩ := bind_eq_ok.mp h
    cases h
    have hrex := length_rex_le rex
    have hfields : (ModRm.bytes { mod := 3, reg := field.code, rm := reg.code }).length = 1 := rfl
    simp only [Bool.toNat_false, Option.map_some, Option.getD_some, hfields]
    omega
  | mem mem =>
    obtain ⟨addressPrefix, -, h⟩ := bind_eq_ok.mp h
    obtain ⟨rex, -, h⟩ := bind_eq_ok.mp h
    obtain ⟨fields, hfields, h⟩ := bind_eq_ok.mp h
    cases h
    have haddress := addressPrefix.toNat_le
    have hrex := length_rex_le rex
    have hfields := Memory.length_modRm_le hfields
    simp only [Option.map_some, Option.getD_some]
    omega

/-- An instruction with ModR/M, whose opcode and immediate leave room for the prefix 66. -/
theorem written_modRm {opcode : List UInt8} {field : RegFieldUse} {target : RegOrMem}
    (hopcode : opcode ≠ [])
    (hlength : size.prefixLength + opcode.length + immediate.length ≤ 5) :
    Written (modRm mode size wide opcode field target >>= fun _ => pushAll immediate
      : Writing room Unit) (withModRm mode size wide opcode field target immediate) :=
  ⟨fills_modRm hlength, fun _ => length_withModRm hopcode hlength⟩

/-- An instruction without ModR/M. Its immediate can have the eight bytes of a value. -/
theorem written_withoutModRm {opcode sum : Nat} {reg : Option Register}
    (hsum : opcode + (reg.map fun reg => reg.code.val).getD 0 = sum) (hbyte : sum < 256)
    (himmediate : immediate.length ≤ 8) :
    Written (prefixes mode size wide reg >>= fun _ => opcodeByte sum >>= fun byte =>
        push byte >>= fun _ => pushAll immediate : Writing room Unit)
      (withoutModRm mode size wide opcode reg immediate) := by
  subst hsum
  have hprefix := size.length_prefix
  have hprefixLe : size.prefixLength ≤ 1 := Bool.toNat_le _
  rw [prefixes, withoutModRm]
  simp only [bind_assoc, pushWhen_eq_pushAll, opcodeByte_eq_pure hbyte, pure_bind,
    push_eq_pushAll]
  constructor
  case fills =>
    refine .pushAll_bind ?_ (.check fun rex _ => ?_)
    · simp only [List.length_nil, scratchSize]
      omega
    have hrex := length_rex_le rex
    refine .pushAll_bind ?_ (.pushAll_bind ?_ (.pushAll ?_ ?_))
    case refine_4 => simp [Layout.bytes]
    all_goals
      simp only [List.length_append, List.length_cons, List.length_nil, scratchSize]
      omega
  case length =>
    intro layout h
    obtain ⟨rex, -, h⟩ := bind_eq_ok.mp h
    cases h
    have hrex := length_rex_le rex
    rw [OperandSize.prefixLength] at hprefixLe
    rw [longestInstruction, Layout.length_bytes]
    simp only [Bool.toNat_false, List.length_cons, List.length_nil, Option.map_none,
      Option.getD_none]
    omega

end Shapes

end Writing

end MachineCode.X86
