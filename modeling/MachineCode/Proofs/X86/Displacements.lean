import MachineCode.Proofs.Session.Routes
import MachineCode.Proofs.X86.Refusals

/-!
# The automatic displacement width

The automatic policy gives a displacement the narrowest field that holds it. Where the address has a
field of its own choice, the automatic width is one of the choices that work, and none that works is
narrower. Where it has not, the width does not matter. So no fixed width encodes what the automatic
one does not, and none does it in fewer bytes.
-/

namespace MachineCode

/-- No field that holds a displacement is narrower than the automatic one. -/
theorem DispPolicy.widthFor_auto_le {disp : Int32} {bits : UInt8}
    (h : X86.DispIn disp.toInt64 bits) : (DispPolicy.auto.widthFor disp).toNat ≤ bits.toNat := by
  rw [widthFor]
  simp only [bits?]
  cases h with
  | none hzero =>
    have hdisp : disp = 0 := by
      apply Int32.toInt_inj.mp
      rw [← Int32.toInt_toInt64, hzero]
      rfl
    rw [if_pos hdisp]
  | byte hlow hhigh =>
    rw [Int32.toInt_toInt64] at hlow hhigh
    have hrange : -128 ≤ disp.toInt ∧ disp.toInt ≤ 127 := ⟨hlow, hhigh⟩
    by_cases hdisp : disp = 0
    · rw [if_pos hdisp]
      decide
    · rw [if_neg hdisp, if_pos hrange]
  | full =>
    split
    · decide
    · split <;> decide

namespace X86

/-! ### ModR/M -/

theorem ModRm.Shortens.refl (fields : ModRm) : fields.Shortens fields :=
  ⟨rfl, rfl, rfl, Nat.le_refl _⟩

section Fields

variable {mem : Memory} {first second : UInt8}

theorem Memory.dispIn_of_dispField {base : Register} {field : Fin 4 × List UInt8}
    (h : mem.dispField base = .ok field) : DispIn mem.disp mem.dispBits :=
  Memory.exists_dispField_iff.mp ⟨field, h⟩

/-- A missing displacement takes a byte behind a base whose code is 5. -/
theorem Memory.length_dispField {base : Register} {mod : Fin 4} {disp : List UInt8}
    (h : mem.dispField base = .ok (mod, disp)) :
    disp.length = if mem.dispBits.toNat = 0 ∧ base.code = 5 then 1
      else mem.dispBits.toNat / 8 := by
  have hlength (count : Nat) : (mem.dispBytes count).length = count := length_littleEndian count _
  rw [dispField] at h
  split at h
  · rename_i hbits
    split at h
    · cases h
    split at h
    · rename_i hcode
      cases h
      rw [hlength, if_pos ⟨hbits, hcode⟩]
    · rename_i hcode
      cases h
      rw [if_neg fun hboth => hcode hboth.2, hbits]
      rfl
  · rename_i hbits
    split at h
    · cases h
      rw [hlength, hbits]
      rfl
    · cases h
  · rename_i hbits
    cases h
    rw [hlength, hbits]
    rfl
  · cases h

theorem DispIn.bits_eq {disp : Int64} {bits : UInt8} (h : DispIn disp bits) :
    bits.toNat = 0 ∨ bits.toNat = 8 ∨ bits.toNat = 32 := by
  cases h with
  | none => exact .inl rfl
  | byte => exact .inr (.inl rfl)
  | full => exact .inr (.inr rfl)

/-- A field that is narrower and still holds the displacement takes no more bytes. -/
theorem Memory.exists_dispField_shorter (hfirst : DispIn mem.disp first)
    (hle : first.toNat ≤ second.toNat) {base : Register} {mod : Fin 4} {long : List UInt8}
    (h : { mem with dispBits := second }.dispField base = .ok (mod, long)) :
    ∃ other short, { mem with dispBits := first }.dispField base = .ok (other, short)
      ∧ short.length ≤ long.length := by
  obtain ⟨⟨other, short⟩, hshort⟩ :
      ∃ field, { mem with dispBits := first }.dispField base = .ok field :=
    Memory.exists_dispField_iff.mpr hfirst
  refine ⟨other, short, hshort, ?_⟩
  have hsecond : DispIn mem.disp second := Memory.dispIn_of_dispField h
  have hbits := hsecond.bits_eq
  rw [Memory.length_dispField hshort, Memory.length_dispField h]
  by_cases hcode : base.code = 5
  · simp only [hcode, and_true]
    split <;> split <;> omega
  · simp only [hcode, and_false, if_false]
    exact Nat.div_le_div_right hle

theorem Memory.modRmWithBase_shortens (base : Register) (reg : Fin 8) (scale mod other : Fin 4)
    {short long : List UInt8} (h : short.length ≤ long.length) :
    (mem.modRmWithBase base reg scale other short).Shortens
      (mem.modRmWithBase base reg scale mod long) := by
  rw [modRmWithBase, modRmWithBase]
  cases mem.index with
  | some index => exact ⟨rfl, rfl, rfl, h⟩
  | none =>
    by_cases hcode : base.code = 4
    · rw [if_pos hcode, if_pos hcode]
      exact ⟨rfl, rfl, rfl, h⟩
    · rw [if_neg hcode, if_neg hcode]
      exact ⟨rfl, rfl, rfl, h⟩

/-- A narrower width that still holds the displacement shortens ModR/M. Addresses that choose their
field themselves are the same at every width. -/
theorem Memory.exists_modRm_shorter (hfirst : DispIn mem.disp first)
    (hle : DispIn mem.disp second → first.toNat ≤ second.toNat) {mode : Mode} {reg : Fin 8}
    {long : ModRm} (h : { mem with dispBits := second }.modRm mode reg = .ok long) :
    ∃ short, { mem with dispBits := first }.modRm mode reg = .ok short ∧ short.Shortens long := by
  have hscale : { mem with dispBits := first }.scaleField?
      = { mem with dispBits := second }.scaleField? := rfl
  have hfits : { mem with dispBits := first }.dispFits
      = { mem with dispBits := second }.dispFits := rfl
  rw [modRm] at h ⊢
  rw [hscale, hfits]
  cases hfield : { mem with dispBits := second }.scaleField? with
  | none =>
    rw [hfield] at h
    cases h
  | some scale =>
    rw [hfield] at h
    simp only at h ⊢
    split at h
    · cases h
    rename_i hdisp
    rw [if_neg hdisp]
    cases hbase : mem.base with
    | none =>
      rw [hbase] at h
      exact ⟨long, h, .refl long⟩
    | some base =>
      rw [hbase] at h
      simp only at h ⊢
      split at h
      · rename_i hpointer
        rw [if_pos hpointer]
        exact ⟨long, h, .refl long⟩
      · rename_i hpointer
        rw [if_neg hpointer]
        obtain ⟨⟨mod, disp⟩, hlong, hok⟩ := bind_eq_ok.mp h
        cases hok
        obtain ⟨other, short, hshort, hlength⟩ :=
          Memory.exists_dispField_shorter hfirst (hle (Memory.dispIn_of_dispField hlong)) hlong
        refine ⟨_, bind_eq_ok.mpr ⟨(other, short), hshort, rfl⟩, ?_⟩
        exact Memory.modRmWithBase_shortens base reg scale mod other hlength

end Fields

/-! ### Layouts -/

theorem Layout.Shortens.length_le {short long : Layout} (h : short.Shortens long) :
    short.bytes.length ≤ long.bytes.length := by
  obtain ⟨fields, other, hmodRm, rfl, hfields⟩ := h
  have hbytes : fields.bytes.length ≤ other.bytes.length := by
    rw [ModRm.bytes, ModRm.bytes, hfields.sib]
    simp only [List.length_append, List.length_cons]
    exact Nat.add_le_add_left hfields.length_le _
  simp only [Layout.length_bytes, hmodRm, Option.map_some, Option.getD_some]
  omega

section Layouts

variable {first second : UInt8} {mode : Mode} {size : OperandSize} {wide : Bool}
  {opcode : List UInt8} {field : RegFieldUse} {immediate : List UInt8} {long : Layout}

theorem exists_withModRm_shorter (mem : Memory) (hfirst : DispIn mem.disp first)
    (hle : DispIn mem.disp second → first.toNat ≤ second.toNat)
    (h : withModRm mode size wide opcode field (.mem { mem with dispBits := second }) immediate
      = .ok long) :
    ∃ short, withModRm mode size wide opcode field (.mem { mem with dispBits := first }) immediate
      = .ok short ∧ short.Shortens long := by
  obtain ⟨addressPrefix, haddress, h⟩ := bind_eq_ok.mp h
  obtain ⟨rex, hrex, h⟩ := bind_eq_ok.mp h
  obtain ⟨other, hother, h⟩ := bind_eq_ok.mp h
  cases h
  obtain ⟨fields, hfields, hshortens⟩ := Memory.exists_modRm_shorter hfirst hle hother
  refine ⟨_, ?_, fields, other, rfl, rfl, hshortens⟩
  exact bind_eq_ok.mpr ⟨addressPrefix, haddress,
    bind_eq_ok.mpr ⟨rex, hrex, bind_eq_ok.mpr ⟨fields, hfields, rfl⟩⟩⟩

end Layouts

section Relocated

variable {inst : Instruction} {memory : ResolvedMemory} {layout : Layout}

/-- What is laid out at an address has an address that can be read. -/
theorem exists_readAddress_of_layoutOf (hcount : inst.requested.length ≤ operandLimit)
    (hmem : ∃ found, .mem found ∈ inst.requested)
    (h : layoutOf (inst.relocate memory) = .ok layout) :
    ∃ address, readAddress memory = .ok address := by
  obtain ⟨found, hfound⟩ := hmem
  obtain ⟨operation, ops, setting, encoded, hencoded⟩ :=
    exists_encoded_of_encode (encode_eq_of_layoutOf (relocate_count hcount memory) h)
  have hmoved : .mem { memory with width := found.width } ∈ (inst.relocate memory).requested :=
    List.mem_map.mpr ⟨_, hfound, rfl⟩
  obtain ⟨op, -, hread⟩ := (exists_mem_of_mapM_eq_ok hencoded.operands_eq).1 _ hmoved
  cases readOperand_eq_ok_iff.mp hread with
  | mem haddress =>
    obtain ⟨hbase, hindex, -⟩ := readAddress_eq_ok_iff.mp haddress
    exact ⟨_, readAddress_eq_ok_iff.mpr ⟨hbase, hindex, rfl⟩⟩

theorem exists_layoutOf_shorter (memory : ResolvedMemory) {first second : UInt8}
    (hcount : inst.requested.length ≤ operandLimit) (hmem : ∃ found, .mem found ∈ inst.requested)
    (hfirst : DispIn memory.disp first)
    (hle : DispIn memory.disp second → first.toNat ≤ second.toNat) {long : Layout}
    (h : layoutOf (inst.relocate { memory with dispBits := second }) = .ok long) :
    ∃ short, layoutOf (inst.relocate { memory with dispBits := first }) = .ok short
      ∧ short.Shortens long := by
  obtain ⟨address, haddress⟩ := exists_readAddress_of_layoutOf hcount hmem h
  obtain ⟨hbase, hindex, rfl⟩ := readAddress_eq_ok_iff.mp haddress
  obtain ⟨form, hroutes, hlayout⟩ := exists_routesAddress hcount hmem
  rw [hlayout haddress] at h
  have hother : readAddress { memory with dispBits := first } = .ok _ :=
    readAddress_eq_ok_iff.mpr ⟨hbase, hindex, rfl⟩
  rw [hlayout hother]
  cases hroutes with
  | refused code hform =>
    rw [hform] at h
    cases h
  | written size wide opcode field immediate hform =>
    rw [hform] at h ⊢
    exact exists_withModRm_shorter
      { memory with base := Register.ofId? memory.base, index := Register.ofId? memory.index }
      hfirst hle h

end Relocated

/-! ### Encode calls -/

theorem orElse_auto (policy : DispPolicy) : policy.orElse .auto = policy := by
  cases policy <;> rfl

/-- The instruction of a request with a memory operand is one shape at every policy, placed at the
same address with another width. -/
theorem exists_instruction_widths {enc : Encoder engine} (hauto : enc.dispPolicy = .auto)
    {req : Request} (hmemory : req.operands.hasMemory) {policy : DispPolicy} {inst : Instruction}
    (h : (req.setDispPolicy policy).instruction? engine enc.mode enc.dispPolicy = some inst) :
    ∃ shape : Instruction, shape.requested.length ≤ operandLimit
      ∧ (∃ found, .mem found ∈ shape.requested)
      ∧ ∀ other : DispPolicy,
        (req.setDispPolicy other).instruction? engine enc.mode enc.dispPolicy
          = some (shape.relocate { req.resolvedAddress engine .auto with
              dispBits := other.widthFor req.address.disp }) := by
  rw [Request.instruction?_eq_map_relocate] at h
  obtain ⟨shape, hshape, -⟩ := Option.map_eq_some_iff.mp h
  obtain ⟨requested, hrequested, hrest⟩ := Option.map_eq_some_iff.mp hshape
  obtain ⟨hlength, hmem⟩ := Request.length_of_mapM_resolveOperand hrequested
  obtain ⟨width, hwidth⟩ := OperandSlots.hasMemory_iff.mp hmemory
  subst hrest
  refine ⟨⟨enc.mode, engine.classes.find req.mnemonic, req.size.effectiveBits, requested⟩,
    hlength.trans_le req.operands.length_toList_le,
    hmem width hwidth, fun other => ?_⟩
  have haddress : (req.setDispPolicy other).resolvedAddress engine enc.dispPolicy
      = { req.resolvedAddress engine .auto with
          dispBits := other.widthFor req.address.disp } := by
    simp only [Request.resolvedAddress, Request.setDispPolicy, hauto, orElse_auto]
  have hoperands : (req.setDispPolicy other).operands = (req.setDispPolicy policy).operands := rfl
  rw [Request.instruction?_eq_map_relocate, haddress, hoperands, hrequested]
  rfl

/-- **The automatic width always works, and no other is shorter.** On an encoder without a fixed
width, a request with a memory operand is never refused for its displacement if it has none either.
If it is encoded with some width, then also with the automatic one, to no more bytes. The bytes are
those of two layouts that differ in `mod` and the displacement alone. -/
theorem encode_result_auto {actions : List TeamAction} {session : Session engine}
    (hsession : session ∈ ((Team.new engine).run actions).members)
    (hauto : session.encoder.dispPolicy = .auto) {req : Request}
    (hmemory : req.operands.hasMemory) :
    let result (policy : DispPolicy) :=
      (session.encoder.encode (req.setDispPolicy policy)).result
    result .auto ≠ .error (.refused ⟨.badDisplacement⟩)
      ∧ ∀ (policy : DispPolicy) (bytes : List UInt8), result policy = .ok bytes →
        ∃ short long,
          LaysOut session.encoder (req.setDispPolicy .auto) short
            ∧ LaysOut session.encoder (req.setDispPolicy policy) long
            ∧ result .auto = .ok short.bytes ∧ bytes = long.bytes
            ∧ short.Shortens long ∧ short.bytes.length ≤ bytes.length := by
  intro result
  have hlex := Team.faithful_run engine actions session hsession
  constructor
  · intro hrefused
    have hends : Ends session.encoder (req.setDispPolicy .auto) (result .auto) :=
      encode_ends hlex _
    rw [hrefused] at hends
    cases hends with
    | rejected h => cases Request.rejection?_isLocal h
    | refused hkept hinst h =>
      rcases layoutOf_request_eq_error hkept hinst h with hcheck | ⟨-, hoverflows⟩
      · exact absurd hcheck (by decide)
      · have hpolicy := hoverflows.policy
        rw [hauto] at hpolicy
        cases hpolicy
  · intro policy bytes hresult
    have hends : Ends session.encoder (req.setDispPolicy policy) (result policy) :=
      encode_ends hlex _
    rw [hresult] at hends
    cases hends with
    | @written inst long hkept hinst hlong =>
      have hlaysOut : LaysOut session.encoder (req.setDispPolicy policy) long :=
        ⟨inst, hinst, hlong⟩
      obtain ⟨shape, hcount, hmem, hshape⟩ := exists_instruction_widths hauto hmemory hinst
      rw [hshape] at hinst
      cases hinst
      have hin : DispIn req.address.disp.toInt64 (DispPolicy.auto.widthFor req.address.disp) := by
        rcases DispPolicy.auto.dispIn_widthFor req.address.disp with hin | ⟨hfixed, -⟩
        · exact hin
        · cases hfixed
      obtain ⟨short, hshort, hshortens⟩ :=
        exists_layoutOf_shorter (req.resolvedAddress engine .auto) hcount hmem hin
          DispPolicy.widthFor_auto_le hlong
      exact ⟨short, long, ⟨_, hshape .auto, hshort⟩, hlaysOut,
        encode_result_of_layoutOf hlex hkept (hshape .auto) hshort, rfl, hshortens,
        hshortens.length_le⟩

/-- MOV EAX, [RCX+5], with four bytes for the displacement and with the one that it needs. -/
theorem encode_result_auto_smallDisp :
    let actions : List TeamAction :=
      [.act 0 (.request "MOV"), .act 0 (.step (.reg "EAX")), .act 0 (.step (.memText 32 "RCX+5"))]
    ∃ session ∈ ((Team.new engine).run actions).members,
      session.encoder.dispPolicy = .auto ∧ session.request.operands.hasMemory
        ∧ (session.encoder.encode (session.request.setDispPolicy .bits32)).result
          = .ok [0x8B, 0x81, 5, 0, 0, 0]
        ∧ (session.encoder.encode (session.request.setDispPolicy .auto)).result
          = .ok [0x8B, 0x41, 5]
        ∧ ∃ short long,
          LaysOut session.encoder (session.request.setDispPolicy .auto) short
            ∧ LaysOut session.encoder (session.request.setDispPolicy .bits32) long
            ∧ short.Shortens long := by
  intro actions
  have hmember : 0 < ((Team.new engine).run actions).members.length := by decide +kernel
  let session := ((Team.new engine).run actions).members[0]
  have hauto : session.encoder.dispPolicy = .auto := by decide +kernel +revert
  have hmemory : session.request.operands.hasMemory := by decide +kernel +revert
  have hlong : (session.encoder.encode (session.request.setDispPolicy .bits32)).result
      = .ok [0x8B, 0x81, 5, 0, 0, 0] := by decide +kernel +revert
  have hshort : (session.encoder.encode (session.request.setDispPolicy .auto)).result
      = .ok [0x8B, 0x41, 5] := by decide +kernel +revert
  have hmem : session ∈ ((Team.new engine).run actions).members := List.getElem_mem hmember
  obtain ⟨short, long, hlaysShort, hlaysLong, -, -, hshortens, -⟩ :=
    (encode_result_auto hmem hauto hmemory).2 .bits32 _ hlong
  exact ⟨session, hmem, hauto, hmemory, hlong, hshort, short, long, hlaysShort, hlaysLong,
    hshortens⟩

end X86

end MachineCode
