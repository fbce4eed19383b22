import MachineCode.Proofs.Results
import MachineCode.Proofs.X86.Fields
import MachineCode.X86.Meaning

/-!
# Addresses read back

The ModR/M byte, the SIB byte and the displacement of a memory operand are read as the address that
the operand stands for. Four corners of the encoding carry the proof: index 4 stands for no index,
a base whose code is 4 needs a SIB byte, a base whose code is 5 needs a displacement, and `r/m` 5
without displacement is absolute or relative to the instruction pointer, as the mode has it.
-/

namespace MachineCode.X86

open Decoder

/-! ### Register numbers -/

theorem Decoder.extend_congr {bit : Bool} {left right : Nat} (h : left % 8 = right % 8) :
    extend bit left = extend bit right := by
  rw [extend, extend, h]

theorem Register.extend_code {reg : Register} (number : Fin 16)
    (hnumber : reg.number = number.val) : extend reg.isExtended reg.code = number := by
  have hlt := number.isLt
  apply Fin.ext
  by_cases hextended : 8 ≤ number.val
  · simp [extend, isExtended, code, hnumber, hextended]
    omega
  · simp [extend, isExtended, code, hnumber, hextended]
    omega

/-! ### Which registers an address has -/

theorem Register.isPointer_eq_false_of_isGeneral {reg : Register} (h : reg.isGeneral) :
    reg.isPointer = false := by
  cases reg <;> simp_all [isGeneral, isPointer]

/-- The registers of an address have one width, and only a base that stands alone can be the
instruction pointer. -/
theorem Memory.addressBits_eq_ok {mem : Memory} {width : Option Nat}
    (h : mem.addressBits = .ok width) :
    width = mem.registers.head?.map Register.bits
      ∧ (∀ base, mem.base = some base →
          base.isGeneral ∧ width = some base.bits ∨ base.isPointer ∧ mem.index = none)
      ∧ ∀ index, mem.index = some index →
          index.isGeneral ∧ index.number ≠ 4 ∧ width = some index.bits := by
  obtain ⟨base, index, scale, disp, dispBits, memWidth⟩ := mem
  cases base with
  | none =>
    cases index with
    | none => simp_all [addressBits, registers]
    | some index =>
      simp only [addressBits] at h
      split at h
      · rename_i hindex
        simp_all [registers]
      · simp at h
  | some base =>
    cases index with
    | none =>
      simp only [addressBits] at h
      split at h
      · rename_i hbase
        simp_all [registers]
      · simp at h
    | some index =>
      simp only [addressBits] at h
      split at h
      · rename_i hindex
        simp_all [registers]
      · simp at h

theorem Memory.addressPrefix_eq_ok {mem : Memory} {mode : Mode} {addressPrefix : Bool}
    (h : mem.addressPrefix mode = .ok addressPrefix) :
    ∃ width, mem.addressBits = .ok width
      ∧ (width = none ∧ addressPrefix = false
        ∨ mode = .mode64 ∧ width = some 64 ∧ addressPrefix = false
        ∨ mode = .mode64 ∧ width = some 32 ∧ addressPrefix = true
        ∨ mode = .mode32 ∧ width = some 32 ∧ addressPrefix = false
          ∧ ∀ reg ∈ mem.registers, reg.isExtended = false ∧ reg.isPointer = false) := by
  rw [Memory.addressPrefix, bind_eq_ok] at h
  obtain ⟨width, hwidth, h⟩ := h
  refine ⟨width, hwidth, ?_⟩
  split at h
  · simp_all
  · simp_all
  · simp_all
  · simp at h
  · split at h
    · simp at h
    · simp_all
  · simp at h

/-- What the decoder relies on: the address size of the mode and prefix is the width of the
registers, a base is the instruction pointer or a register of that width, and an index is a
register of that width other than number 4. -/
structure Memory.Addressable (mem : Memory) (mode : Mode) (addressPrefix : Bool) : Prop where
  addressBits : ∀ ctx : Context, ctx.mode = mode → ctx.addressPrefix = addressPrefix →
    ctx.addressBits? = some (mem.effective mode).bits
  pointer : ∀ base, mem.base = some base → base.isPointer → mode = .mode64 →
    base = (if (mem.effective mode).bits = 64 then .rip else .eip) ∧ mem.index = none
  base : ∀ base, mem.base = some base → base.isPointer = false →
    ∃ number, base = addressRegister (mem.effective mode).bits number
  index : ∀ index, mem.index = some index →
    ∃ number, number ≠ 4 ∧ index = addressRegister (mem.effective mode).bits number

theorem Register.eq_addressRegister {reg : Register} (hgeneral : reg.isGeneral)
    (hbits : reg.bits = 32 ∨ reg.bits = 64) :
    ∃ number : Fin 16, number.val = reg.number ∧ reg = addressRegister reg.bits number := by
  cases reg with
  | general size number =>
    refine ⟨number, rfl, ?_⟩
    cases size <;> simp_all [bits, OperandSize.bits, addressRegister]
  | _ => simp [isGeneral] at hgeneral

theorem Memory.addressable_of_addressPrefix {mem : Memory} {mode : Mode} {addressPrefix : Bool}
    (h : mem.addressPrefix mode = .ok addressPrefix) : mem.Addressable mode addressPrefix := by
  obtain ⟨width, hwidth, hcases⟩ := addressPrefix_eq_ok h
  obtain ⟨hhead, hbase, hindex⟩ := addressBits_eq_ok hwidth
  have heffective : (mem.effective mode).bits = width.getD mode.bits := by
    rw [effective, hhead]
  -- With a register the width is 32 or 64 bits, and the effective width.
  have hregister : ∀ reg : Register, width = some reg.bits →
      (reg.bits = 32 ∨ reg.bits = 64) ∧ (mem.effective mode).bits = reg.bits := by
    intro reg hreg
    refine ⟨?_, by rw [heffective, hreg]; rfl⟩
    rcases hcases with ⟨hnone, _⟩ | ⟨_, hsome, _⟩ | ⟨_, hsome, _⟩ | ⟨_, hsome, _⟩
    · simp [hnone] at hreg
    · exact .inr (Option.some.inj (hreg.symm.trans hsome))
    · exact .inl (Option.some.inj (hreg.symm.trans hsome))
    · exact .inl (Option.some.inj (hreg.symm.trans hsome))
  refine ⟨?addressBits, ?pointer, ?base, ?index⟩
  case addressBits =>
    intro ctx hmode hprefix
    rw [heffective, Context.addressBits?, hmode, hprefix]
    rcases hcases with ⟨hnone, hp⟩ | ⟨hm, hsome, hp⟩ | ⟨hm, hsome, hp⟩ | ⟨hm, hsome, hp, _⟩
    · subst hnone hp
      cases mode <;> rfl
    · subst hsome hp hm
      rfl
    · subst hsome hp hm
      rfl
    · subst hsome hp hm
      rfl
  case pointer =>
    intro base hsome hpointer hmode
    rcases hbase base hsome with ⟨hgeneral, _⟩ | ⟨_, hnone⟩
    · simp [Register.isPointer_eq_false_of_isGeneral hgeneral] at hpointer
    · have hbits : (mem.effective mode).bits = base.bits := by
        simp [effective, registers, hsome]
      refine ⟨?_, hnone⟩
      rw [hbits]
      cases base <;> simp_all [Register.isPointer, Register.bits]
  case base =>
    intro base hsome hpointer
    rcases hbase base hsome with ⟨hgeneral, hwidth⟩ | ⟨htrue, _⟩
    · obtain ⟨hbits, hsame⟩ := hregister base hwidth
      obtain ⟨number, _, heq⟩ := Register.eq_addressRegister hgeneral hbits
      exact ⟨number, by rw [hsame]; exact heq⟩
    · simp [htrue] at hpointer
  case index =>
    intro index hsome
    obtain ⟨hgeneral, hfour, hwidth⟩ := hindex index hsome
    obtain ⟨hbits, hsame⟩ := hregister index hwidth
    obtain ⟨number, hnumber, heq⟩ := Register.eq_addressRegister hgeneral hbits
    refine ⟨number, ?_, by rw [hsame]; exact heq⟩
    intro hnumber4
    exact hfour (by rw [← hnumber, hnumber4]; rfl)

/-! ### Displacements and scales -/

/-- A displacement is read back from a field that holds it with its sign. -/
theorem Memory.readDisp_dispBytes {mem : Memory} {count : Nat} (hcount : count ≤ 8)
    (hlow : -fieldRange (8 * count) ≤ mem.disp.toInt * 2)
    (hhigh : mem.disp.toInt * 2 < fieldRange (8 * count))
    (rest : List UInt8) :
    readDisp count (mem.dispBytes count ++ rest) = some (mem.disp.toInt, rest) := by
  have htoInt : mem.disp.toInt = Int.bmod mem.disp.toUInt64.toNat (fieldRange 64) :=
    BitVec.toInt_eq_toNat_bmod mem.disp.toBitVec
  have hdvd : fieldRange (8 * count) ∣ fieldRange 64 :=
    Nat.pow_dvd_pow 2 (show 8 * count ≤ 64 by omega)
  have hvalue : signed (8 * count) (mem.disp.toUInt64.toNat % fieldRange (8 * count))
      = mem.disp.toInt := by
    calc signed (8 * count) (mem.disp.toUInt64.toNat % fieldRange (8 * count))
        = Int.bmod mem.disp.toUInt64.toNat (fieldRange (8 * count)) := by
          rw [signed, Int.natCast_emod, Int.emod_bmod]
      _ = Int.bmod mem.disp.toInt (fieldRange (8 * count)) := by
          rw [htoInt, Int.bmod_bmod_of_dvd hdvd]
      _ = mem.disp.toInt := by
          exact Int.bmod_eq_of_le_mul_two hlow hhigh
  rw [readDisp, dispBytes, readField_littleEndian]
  simp only [Option.map_some, hvalue]

theorem Memory.scaleField?_eq_some {mem : Memory} {scale : Fin 4}
    (h : mem.scaleField? = some scale) : 1 <<< scale.val = max mem.scale.toNat 1 := by
  rw [scaleField?] at h
  split at h <;> simp_all <;> subst h <;> rfl

theorem Memory.bounds_of_dispFits {mem : Memory} (h : mem.dispFits) :
    -0x80000000 ≤ mem.disp.toInt ∧ mem.disp.toInt < 0x80000000 := by
  simpa [dispFits] using h

theorem Memory.readDisp_four {mem : Memory} (hfits : mem.dispFits) (rest : List UInt8) :
    readDisp 4 (mem.dispBytes 4 ++ rest) = some (mem.disp.toInt, rest) := by
  have hrange : fieldRange (8 * 4) = 0x100000000 := rfl
  obtain ⟨hlow, hhigh⟩ := bounds_of_dispFits hfits
  exact readDisp_dispBytes (by omega) (by omega) (by omega) rest

theorem Memory.readDisp_one {mem : Memory} (hlow : -128 ≤ mem.disp.toInt)
    (hhigh : mem.disp.toInt ≤ 127) (rest : List UInt8) :
    readDisp 1 (mem.dispBytes 1 ++ rest) = some (mem.disp.toInt, rest) := by
  have hrange : fieldRange (8 * 1) = 0x100 := rfl
  exact readDisp_dispBytes (by omega) (by omega) (by omega) rest

/-- Behind a base the `mod` field announces the displacement that follows, and never leaves out the
displacement of a base whose code is 5. -/
theorem Memory.dispField_eq_ok {mem : Memory} {base : Register} {mod : Fin 4} {disp : List UInt8}
    (hfits : mem.dispFits) (h : mem.dispField base = .ok (mod, disp)) :
    mod ≠ 3 ∧ (mod = 0 → base.code ≠ 5)
      ∧ ∀ rest, readDisp (dispCount mod) (disp ++ rest) = some (mem.disp.toInt, rest) := by
  rw [dispField] at h
  split at h
  · split at h
    · simp at h
    · rename_i hzero
      have hdisp : mem.disp.toInt = 0 := by
        rw [Decidable.not_not.mp hzero]
        rfl
      split at h <;> rename_i hcode <;> cases h
      · exact ⟨by decide, fun hmod => absurd hmod (by decide), readDisp_one (by omega) (by omega)⟩
      · refine ⟨by decide, fun _ => hcode, fun rest => ?_⟩
        rw [hdisp]
        rfl
  · split at h
    · rename_i hrange
      cases h
      exact ⟨by decide, fun hmod => absurd hmod (by decide), readDisp_one hrange.1 hrange.2⟩
    · simp at h
  · cases h
    exact ⟨by decide, fun hmod => absurd hmod (by decide), readDisp_four hfits⟩
  · simp at h

/-! ### Addresses -/

section Fields

variable (mem : Memory) (mode : Mode) (base : Register) (reg : Fin 8) (scale mod : Fin 4)
  (disp : List UInt8)

@[simp]
theorem Memory.modRmWithoutBase_mod : (mem.modRmWithoutBase mode reg scale).mod = 0 := by
  unfold modRmWithoutBase
  split <;> rfl

@[simp]
theorem Memory.modRmWithoutBase_reg : (mem.modRmWithoutBase mode reg scale).reg = reg := by
  unfold modRmWithoutBase
  split <;> rfl

@[simp]
theorem Memory.modRmWithBase_mod : (mem.modRmWithBase base reg scale mod disp).mod = mod := by
  unfold modRmWithBase
  split
  · rfl
  · split <;> rfl

@[simp]
theorem Memory.modRmWithBase_reg : (mem.modRmWithBase base reg scale mod disp).reg = reg := by
  unfold modRmWithBase
  split
  · rfl
  · split <;> rfl

end Fields

/-- The index and factor that a SIB byte shows. -/
def Decoder.Context.scaledIndex (ctx : Context) (bits : Nat) (sib : Sib) :
    Option (Register × Nat) :=
  if extend (ctx.rexBit Rex.x) sib.index = 4 then none
  else some (addressRegister bits (extend (ctx.rexBit Rex.x) sib.index), 1 <<< sib.scale.val)

section Reading

variable {ctx : Context} {bits : Nat} (hbits : ctx.addressBits? = some bits)
include hbits

theorem Decoder.readAddress_sib (mod : Nat) (sib : Sib) (bytes : List UInt8) :
    readAddress ctx mod 4 (sib.byte :: bytes) =
      if mod = 0 ∧ sib.base = 5 then
        (readDisp 4 bytes).map fun (disp, rest) =>
          ({ base := none, index := ctx.scaledIndex bits sib, disp, bits }, rest)
      else
        (readDisp (dispCount mod) bytes).map fun (disp, rest) =>
          ({ base := some (addressRegister bits (extend (ctx.rexBit Rex.b) sib.base))
             index := ctx.scaledIndex bits sib, disp, bits }, rest) := by
  have hscale := sib.scale.isLt
  have hindex := sib.index.isLt
  have hbase := sib.base.isLt
  have hbaseMod : sib.byte.toNat % 8 = sib.base.val := by
    rw [sib.toNat_byte]
    omega
  have hindexField : extend (ctx.rexBit Rex.x) (sib.byte.toNat / 8)
      = extend (ctx.rexBit Rex.x) sib.index := by
    apply extend_congr
    rw [sib.toNat_byte]
    omega
  have hbaseField : extend (ctx.rexBit Rex.b) sib.byte.toNat
      = extend (ctx.rexBit Rex.b) sib.base := by
    apply extend_congr
    rw [sib.toNat_byte]
    omega
  have hscaleField : sib.byte.toNat / 64 = sib.scale.val := by
    rw [sib.toNat_byte]
    omega
  have hfive : sib.base.val = 5 ↔ sib.base = 5 :=
    (Fin.ext_iff (a := sib.base) (b := 5)).symm
  simp only [readAddress, hbits, readField_one_cons, Option.bind_eq_bind, Option.bind_some,
    if_pos, hbaseMod, hindexField, hbaseField, hscaleField, Context.scaledIndex, hfive]
  split <;> cases readDisp _ bytes <;> rfl

theorem Decoder.readAddress_disp32 (bytes : List UInt8) :
    readAddress ctx 0 5 bytes = (readDisp 4 bytes).map fun (disp, rest) =>
      ({ base :=
          match ctx.mode with
          | .mode64 => some (if bits = 64 then .rip else .eip)
          | .mode32 => none
         index := none, disp, bits }, rest) := by
  simp only [readAddress, hbits, Option.bind_eq_bind, Option.bind_some]
  rw [if_neg (by decide), if_pos (by decide)]
  cases readDisp 4 bytes <;> rfl

theorem Decoder.readAddress_base {mod rm : Nat} (hsib : rm ≠ 4) (hdisp : ¬(mod = 0 ∧ rm = 5))
    (bytes : List UInt8) :
    readAddress ctx mod rm bytes = (readDisp (dispCount mod) bytes).map fun (disp, rest) =>
      ({ base := some (addressRegister bits (extend (ctx.rexBit Rex.b) rm))
         index := none, disp, bits }, rest) := by
  simp only [readAddress, hbits, Option.bind_eq_bind, Option.bind_some]
  rw [if_neg hsib, if_neg hdisp]
  cases readDisp (dispCount mod) bytes <;> rfl

end Reading

theorem Register.extend_code_addressRegister (bits : Nat) (number : Fin 16) :
    extend (addressRegister bits number).isExtended (addressRegister bits number).code = number :=
  Register.extend_code number rfl

theorem Decoder.Context.scaledIndex_register {ctx : Context} {bits : Nat} {index : Register}
    {number : Fin 16} (hindex : index = addressRegister bits number) (hnumber : number ≠ 4)
    (hx : ctx.rexBit Rex.x = index.isExtended) (scale : Fin 4) (base : Fin 8) :
    ctx.scaledIndex bits ⟨scale, index.code, base⟩ = some (index, 1 <<< scale.val) := by
  subst hindex
  rw [scaledIndex, hx, Register.extend_code_addressRegister, if_neg hnumber]

theorem Decoder.Context.scaledIndex_none {ctx : Context} (hx : ctx.rexBit Rex.x = false)
    (bits : Nat) (scale : Fin 4) (base : Fin 8) : ctx.scaledIndex bits ⟨scale, 4, base⟩ = none := by
  rw [scaledIndex, hx]
  exact if_pos rfl

/-- A context in which the fields of a memory operand are read: it has the address size of the
operand, and REX holds the fourth bits of its registers. -/
structure Decoder.Context.Suits (ctx : Context) (mem : Memory) : Prop where
  addressable : mem.Addressable ctx.mode ctx.addressPrefix
  x : ctx.rexBit Rex.x = mem.index.any Register.isExtended
  b : ctx.rexBit Rex.b = mem.base.any Register.isExtended

section Memory

variable {ctx : Context} {mem : Memory} (hsuits : ctx.Suits mem) (hfits : mem.dispFits)
  {scale : Fin 4} (hscale : 1 <<< scale.val = max mem.scale.toNat 1)
include hsuits hfits hscale

theorem Memory.readAddress_withoutBase (hbase : mem.base = none) (reg : Fin 8)
    (rest : List UInt8) :
    let modRm := mem.modRmWithoutBase ctx.mode reg scale
    readAddress ctx modRm.mod modRm.rm
        ((modRm.sib.map Sib.byte).toList ++ (modRm.disp ++ rest))
      = some (mem.effective ctx.mode, rest) := by
  have hbits := hsuits.addressable.addressBits ctx rfl rfl
  have hdisp := readDisp_four hfits rest
  cases hindex : mem.index with
  | some index =>
    obtain ⟨number, hnumber, hregister⟩ := hsuits.addressable.index index hindex
    have hx : ctx.rexBit Rex.x = index.isExtended := by rw [hsuits.x, hindex]; rfl
    have hscaled := Context.scaledIndex_register hregister hnumber hx scale 5
    have hread := readAddress_sib hbits 0 ⟨scale, index.code, 5⟩ (mem.dispBytes 4 ++ rest)
    rw [if_pos ⟨rfl, rfl⟩, hdisp, hscaled, hscale] at hread
    simp only [modRmWithoutBase, hindex]
    exact hread.trans (by simp [effective, hbase, hindex])
  | none =>
    have hx : ctx.rexBit Rex.x = false := by rw [hsuits.x, hindex]; rfl
    cases hmode : ctx.mode with
    | mode64 =>
      have hread := readAddress_sib hbits 0 ⟨0, 4, 5⟩ (mem.dispBytes 4 ++ rest)
      rw [if_pos ⟨rfl, rfl⟩, hdisp, Context.scaledIndex_none hx, hmode] at hread
      simp only [modRmWithoutBase, hindex]
      exact hread.trans (by simp [effective, hbase, hindex])
    | mode32 =>
      have hread := readAddress_disp32 hbits (mem.dispBytes 4 ++ rest)
      rw [hdisp, hmode] at hread
      simp only [modRmWithoutBase, hindex]
      exact hread.trans (by simp [effective, hbase, hindex])

theorem Memory.readAddress_withBase {base : Register} (hbase : mem.base = some base)
    (hpointer : base.isPointer = false) {mod : Fin 4} {disp : List UInt8}
    (hdisp : mem.dispField base = .ok (mod, disp)) (reg : Fin 8) (rest : List UInt8) :
    let modRm := mem.modRmWithBase base reg scale mod disp
    readAddress ctx modRm.mod modRm.rm
        ((modRm.sib.map Sib.byte).toList ++ (modRm.disp ++ rest))
      = some (mem.effective ctx.mode, rest) := by
  have hbits := hsuits.addressable.addressBits ctx rfl rfl
  obtain ⟨-, hcode, hread⟩ := dispField_eq_ok hfits hdisp
  obtain ⟨number, hregister⟩ := hsuits.addressable.base base hbase hpointer
  have hb : ctx.rexBit Rex.b = base.isExtended := by rw [hsuits.b, hbase]; rfl
  have hextend : addressRegister (mem.effective ctx.mode).bits
      (extend (ctx.rexBit Rex.b) base.code) = base := by
    rw [hb, hregister, Register.extend_code_addressRegister]
  have hmod : ∀ {code : Fin 8}, base.code = code → ¬(mod.val = 0 ∧ code = 5) := by
    rintro code rfl ⟨hzero, hfive⟩
    exact hcode (Fin.ext hzero) hfive
  cases hindex : mem.index with
  | some index =>
    obtain ⟨indexNumber, hnumber, hindexRegister⟩ := hsuits.addressable.index index hindex
    have hx : ctx.rexBit Rex.x = index.isExtended := by rw [hsuits.x, hindex]; rfl
    have hscaled := Context.scaledIndex_register hindexRegister hnumber hx scale base.code
    have haddress := readAddress_sib hbits mod ⟨scale, index.code, base.code⟩ (disp ++ rest)
    rw [if_neg (hmod rfl), hread rest, hscaled, hscale, hextend] at haddress
    simp only [modRmWithBase, hindex]
    exact haddress.trans (by simp [effective, hbase, hindex])
  | none =>
    have hx : ctx.rexBit Rex.x = false := by rw [hsuits.x, hindex]; rfl
    simp only [modRmWithBase, hindex]
    by_cases hfour : base.code = 4
    · have haddress := readAddress_sib hbits mod ⟨scale, 4, base.code⟩ (disp ++ rest)
      rw [if_neg (hmod rfl), hread rest, Context.scaledIndex_none hx, hextend] at haddress
      rw [if_pos hfour]
      exact haddress.trans (by simp [effective, hbase, hindex])
    · have hsib : base.code.val ≠ 4 := fun heq => hfour (Fin.ext heq)
      have hdisp32 : ¬(mod.val = 0 ∧ base.code.val = 5) :=
        fun ⟨hzero, hfive⟩ => hmod rfl ⟨hzero, Fin.ext hfive⟩
      have haddress := readAddress_base hbits hsib hdisp32 (disp ++ rest)
      rw [hread rest, hextend] at haddress
      rw [if_neg hfour]
      exact haddress.trans (by simp [effective, hbase, hindex])

end Memory

theorem Memory.readAddress_pointer {ctx : Context} {mem : Memory} (hsuits : ctx.Suits mem)
    (hfits : mem.dispFits) (hmode : ctx.mode = .mode64) {base : Register}
    (hbase : mem.base = some base) (hpointer : base.isPointer) (rest : List UInt8) :
    readAddress ctx 0 5 (mem.dispBytes 4 ++ rest) = some (mem.effective ctx.mode, rest) := by
  have hbits := hsuits.addressable.addressBits ctx rfl rfl
  obtain ⟨hregister, hindex⟩ := hsuits.addressable.pointer base hbase hpointer hmode
  have hread := readAddress_disp32 hbits (mem.dispBytes 4 ++ rest)
  rw [readDisp_four hfits, hmode] at hread
  rw [hmode] at hregister ⊢
  rw [← hregister] at hread
  exact hread.trans (by simp [effective, hbase, hindex])

/-- The fields of a memory operand are read back as its address. -/
theorem Memory.readAddress_modRm {ctx : Context} {mem : Memory} (hsuits : ctx.Suits mem)
    {reg : Fin 8} {fields : ModRm} (h : mem.modRm ctx.mode reg = .ok fields) :
    fields.mod ≠ 3 ∧ fields.reg = reg
      ∧ ∀ rest, readAddress ctx fields.mod fields.rm
          ((fields.sib.map Sib.byte).toList ++ (fields.disp ++ rest))
        = some (mem.effective ctx.mode, rest) := by
  rw [modRm] at h
  split at h
  · simp at h
  rename_i scale hscaleField
  have hscale := scaleField?_eq_some hscaleField
  split at h
  · simp at h
  rename_i hdispFits
  have hfits : mem.dispFits := by simpa using hdispFits
  split at h
  · rename_i hbase
    cases h
    refine ⟨?_, by simp, readAddress_withoutBase hsuits hfits hscale hbase reg⟩
    rw [modRmWithoutBase_mod]
    decide
  rename_i base hbase
  split at h
  · rename_i hpointer
    split at h
    · simp at h
    rename_i hmode
    cases h
    have hmode64 : ctx.mode = .mode64 := Mode.eq_mode64_of_ne hmode
    exact ⟨of_decide_eq_false rfl, rfl, readAddress_pointer hsuits hfits hmode64 hbase hpointer⟩
  · rename_i hpointer
    obtain ⟨⟨mod, disp⟩, hdisp, h⟩ := bind_eq_ok.mp h
    cases h
    obtain ⟨hmod, -⟩ := dispField_eq_ok hfits hdisp
    have hgeneral : base.isPointer = false := by simpa using hpointer
    refine ⟨?_, by simp, readAddress_withBase hsuits hfits hscale hbase hgeneral hdisp reg⟩
    rw [modRmWithBase_mod]
    exact hmod

/-! ### ModR/M -/

theorem Decoder.readModRm_memory {ctx : Context} {mem : Memory} (hsuits : ctx.Suits mem)
    {reg : Fin 8} {fields : ModRm} (h : mem.modRm ctx.mode reg = .ok fields)
    (rest : List UInt8) :
    readModRm ctx (fields.bytes ++ rest)
      = some (⟨reg, extend (ctx.rexBit Rex.r) reg, .mem (mem.effective ctx.mode)⟩, rest) := by
  obtain ⟨hmod, hreg, hread⟩ := Memory.readAddress_modRm hsuits h
  have hmodLt := fields.mod.isLt
  have hregLt := fields.reg.isLt
  have hrmLt := fields.rm.isLt
  have hbyte := fields.toNat_byte
  have hmodField : fields.byte.toNat / 64 = fields.mod.val := by omega
  have hrmField : fields.byte.toNat % 8 = fields.rm.val := by omega
  have hregField : fields.byte.toNat / 8 % 8 = reg.val := by
    rw [← hreg]
    omega
  have hmodNe : fields.mod.val ≠ 3 := fun heq => hmod (Fin.ext heq)
  have hbytes : fields.bytes ++ rest
      = fields.byte :: ((fields.sib.map Sib.byte).toList ++ (fields.disp ++ rest)) := by
    simp [ModRm.bytes]
  simp only [readModRm, hbytes, readField_one_cons, Option.bind_eq_bind, Option.bind_some,
    hmodField, hrmField, hregField, hread rest]
  rw [if_neg hmodNe]
  rfl

theorem Decoder.readModRm_register (ctx : Context) (reg rm : Fin 8) (rest : List UInt8) :
    readModRm ctx (ModRm.bytes { mod := 3, reg, rm } ++ rest)
      = some (⟨reg, extend (ctx.rexBit Rex.r) reg, .reg (extend (ctx.rexBit Rex.b) rm)⟩, rest) := by
  have hregLt := reg.isLt
  have hrmLt := rm.isLt
  have hbyte := ModRm.toNat_byte { mod := 3, reg, rm }
  have hmodField : (ModRm.byte { mod := 3, reg, rm }).toNat / 64 = 3 := by
    rw [hbyte]
    simp only [show (3 : Fin 4).val = 3 from rfl]
    omega
  have hregField : (ModRm.byte { mod := 3, reg, rm }).toNat / 8 % 8 = reg.val := by
    rw [hbyte]
    simp only [show (3 : Fin 4).val = 3 from rfl]
    omega
  have hrmField : extend (ctx.rexBit Rex.b) (ModRm.byte { mod := 3, reg, rm }).toNat
      = extend (ctx.rexBit Rex.b) rm := by
    apply extend_congr
    rw [hbyte]
    simp only [show (3 : Fin 4).val = 3 from rfl]
    omega
  have hbytes : ModRm.bytes { mod := 3, reg, rm } ++ rest
      = ModRm.byte { mod := 3, reg, rm } :: rest := by
    simp [ModRm.bytes]
  simp only [readModRm, hbytes, readField_one_cons, Option.bind_eq_bind, Option.bind_some,
    hmodField, hregField, hrmField]
  rfl

end MachineCode.X86
