import MachineCode.Proofs.X86.Answers

/-!
# Immediates

An immediate goes from the request to the engine as 64 bits, of which the instruction keeps the low
ones and the processor repeats the top one of these up to the operand size. A signed value comes back
from this as it was. An unsigned value does unless the field is narrower than the operand and the
value uses its top bit.
-/

namespace MachineCode

/-! ### Bits that are cut and extended again -/

section Bits

variable {width : Nat}

/-- A sign that is extended further than needed can be cut off again. -/
theorem cut_signExtend (x : BitVec width) {count limit : Nat} (h : count ≤ limit) :
    (x.signExtend limit).setWidth count = x.signExtend count := by
  ext index hindex
  have hlimit : index < limit := Nat.lt_of_lt_of_le hindex h
  simp [BitVec.getElem_signExtend, hlimit]

theorem cut_signExtend_self (x : BitVec width) {limit : Nat} (h : width ≤ limit) :
    (x.signExtend limit).setWidth width = x := by
  calc (x.signExtend limit).setWidth width = x.signExtend width := cut_signExtend x h
    _ = x.setWidth width := x.signExtend_eq_setWidth_of_le (Nat.le_refl width)
    _ = x := x.setWidth_eq

/-- Extending with the sign and with zeros differ in a wider field, if the top bit is set. -/
theorem signExtend_eq_setWidth_iff {x : BitVec width} {count : Nat} (h : width ≤ count) :
    x.signExtend count = x.setWidth count ↔ width = count ∨ x.msb = false := by
  constructor
  · intro heq
    rcases Nat.eq_or_lt_of_le h with hwidth | hlt
    · exact .inl hwidth
    · right
      calc x.msb = (x.signExtend count).getLsbD width := by
            rw [BitVec.getLsbD_signExtend]
            simp [hlt]
        _ = (x.setWidth count).getLsbD width := by rw [heq]
        _ = false := by rw [BitVec.getLsbD_setWidth, x.getLsbD_of_ge width (Nat.le_refl width),
            Bool.and_false]
  · rintro (rfl | hmsb)
    · exact x.signExtend_eq_setWidth_of_le (Nat.le_refl width)
    · exact BitVec.signExtend_eq_setWidth_of_msb_false hmsb

theorem msb_eq_false_iff {x : BitVec width} : x.msb = false ↔ x.toNat < 2 ^ (width - 1) := by
  rw [BitVec.msb_eq_decide, decide_eq_false_iff_not, Nat.not_le]

/-- A field of whole bytes holds the low bits of what was written to it. -/
theorem ofNat_ofLittleEndian {count limit : Nat} (x : BitVec limit) (hwidth : width = 8 * count) :
    BitVec.ofNat width (ofLittleEndian (littleEndian count x.toNat)) = x.setWidth width := by
  subst hwidth
  apply BitVec.eq_of_toNat_eq
  rw [ofLittleEndian_littleEndian, BitVec.toNat_ofNat, BitVec.toNat_setWidth]
  exact Nat.mod_mod _ _

theorem littleEndian_mod (count value : Nat) :
    littleEndian count (value % fieldRange (8 * count)) = littleEndian count value := by
  induction count generalizing value with
  | zero => rfl
  | succ count ih =>
    have hbyte : UInt8.ofNat (value % fieldRange (8 * (count + 1))) = UInt8.ofNat value := by
      apply UInt8.toNat_inj.mp
      rw [UInt8.toNat_ofNat', UInt8.toNat_ofNat', fieldRange_eight_mul_succ]
      exact Nat.mod_mul_right_mod value 256 _
    have hrest : value % fieldRange (8 * (count + 1)) / 256
        = value / 256 % fieldRange (8 * count) := by
      rw [fieldRange_eight_mul_succ, Nat.mod_mul_right_div_self]
    rw [littleEndian, littleEndian, hbyte, hrest, ih]

/-- Only the low bits go into a field. -/
theorem littleEndian_toNat {count limit : Nat} (x : BitVec limit) (hwidth : width = 8 * count) :
    littleEndian count x.toNat = littleEndian count (x.setWidth width).toNat := by
  subst hwidth
  rw [BitVec.toNat_setWidth]
  exact (littleEndian_mod count x.toNat).symm

end Bits

/-! ### Values -/

theorem ImmediateKind.bits_eq_eight_mul (kind : ImmediateKind) :
    kind.bits.toNat = 8 * (kind.bits.toNat / 8) := by
  cases kind <;> decide

theorem ImmediateKind.bits_le (kind : ImmediateKind) : kind.bits.toNat ≤ 64 := by
  cases kind <;> decide

namespace Immediate

/-- The bits of a value, as many as its kind has. -/
def pattern : (value : Immediate) → BitVec value.kind.bits.toNat
  | .uint8 value => value.toBitVec
  | .uint32 value => value.toBitVec
  | .uint64 value => value.toBitVec
  | .int8 value | .rel8 value => value.toBitVec
  | .int16 value | .rel16 value => value.toBitVec
  | .int32 value | .rel32 value => value.toBitVec

theorem toBitVec_payload (value : Immediate) :
    value.payload.toBitVec = if value.kind.isUnsigned then value.pattern.setWidth 64
      else value.pattern.signExtend 64 := by
  cases value with
  | uint8 value => exact UInt8.toBitVec_toUInt64 value
  | uint32 value => exact UInt32.toBitVec_toUInt64 value
  | uint64 value => exact (BitVec.setWidth_eq value.toBitVec).symm
  | int8 value | rel8 value => exact Int8.toBitVec_toInt64 value
  | int16 value | rel16 value => exact Int16.toBitVec_toInt64 value
  | int32 value | rel32 value => exact Int32.toBitVec_toInt64 value

theorem toInt_of_isUnsigned {value : Immediate} (h : value.kind.isUnsigned) :
    value.toInt = value.pattern.toNat := by
  cases value with
  | uint8 value | uint32 value | uint64 value => rfl
  | _ => cases h

/-- The low bits of the payload are those of the value. -/
theorem setWidth_payload (value : Immediate) :
    value.payload.toBitVec.setWidth value.kind.bits.toNat = value.pattern := by
  have hle : value.kind.bits.toNat ≤ 64 := value.kind.bits_le
  rw [toBitVec_payload]
  split
  · rw [BitVec.setWidth_setWidth_of_le _ hle, BitVec.setWidth_eq]
  · exact cut_signExtend_self _ hle

theorem pattern_signExtend_eq_iff {value : Immediate} {count : Nat} (hcount : count ≤ 64)
    (hwidth : value.kind.isUnsigned → value.kind.bits.toNat ≤ count) :
    value.pattern.signExtend count = value.payload.toBitVec.setWidth count
      ↔ value.kind.isUnsigned = false ∨ value.kind.bits.toNat = count
        ∨ value.toInt < 2 ^ (value.kind.bits.toNat - 1) := by
  rw [toBitVec_payload]
  cases hunsigned : value.kind.isUnsigned with
  | true =>
    have hvalue : value.toInt < 2 ^ (value.kind.bits.toNat - 1)
        ↔ value.pattern.toNat < 2 ^ (value.kind.bits.toNat - 1) := by
      rw [toInt_of_isUnsigned hunsigned]
      norm_cast
    simp only [if_true, BitVec.setWidth_setWidth_of_le _ hcount, Bool.true_eq_false, false_or]
    rw [signExtend_eq_setWidth_iff (hwidth hunsigned), msb_eq_false_iff, hvalue]
  | false =>
    simp only [Bool.false_eq_true, if_false, true_or, iff_true]
    exact (cut_signExtend _ hcount).symm

end Immediate

namespace X86

/-! ### Operands -/

/-- The operand of an instruction that holds a value of a request. -/
def ofImmediate : Immediate → Operand
  | .rel8 disp => .rel disp.toInt32 8
  | .rel16 disp => .rel disp.toInt32 16
  | .rel32 disp => .rel disp 32
  | value => .imm value.payload value.kind.bits

theorem readOperand_of_immediate {memory : ResolvedMemory} {value : Immediate}
    {asked : ResolvedOperand} (h : Encoder.resolveOperand memory (.imm value) = some asked) :
    readOperand asked = .ok (ofImmediate value) := by
  cases value <;> cases h <;> rfl

/-- Whatever stands for a value at the end of an instruction holds the low bytes of its payload. -/
theorem EndsIn.eq_littleEndian {limit : Nat} {ops : List Operand} {bytes : List UInt8}
    {value : Immediate} (h : EndsIn limit ops bytes) (hmem : ofImmediate value ∈ ops) :
    bytes = littleEndian (value.kind.bits.toNat / 8) value.payload.toNat
      ∧ (value.kind.isUnsigned → value.kind.bits.toNat ≤ limit) := by
  have hwidth := value.kind.bits_eq_eight_mul
  -- The engine gets a displacement in 32 bits, of which the field takes no more than these.
  have hdisp {disp : Int32} (hlow : disp.toBitVec.setWidth value.kind.bits.toNat = value.pattern) :
      littleEndian (value.kind.bits.toNat / 8) disp.toUInt32.toNat
        = littleEndian (value.kind.bits.toNat / 8) value.payload.toNat := by
    calc littleEndian (value.kind.bits.toNat / 8) disp.toBitVec.toNat
        = littleEndian (value.kind.bits.toNat / 8) value.pattern.toNat := by
          rw [littleEndian_toNat _ hwidth, hlow]
      _ = littleEndian (value.kind.bits.toNat / 8) value.payload.toBitVec.toNat := by
          rw [littleEndian_toNat value.payload.toBitVec hwidth, value.setWidth_payload]
  cases value with
  | rel8 disp =>
    refine ⟨(h.rel _ _ hmem).trans (hdisp ?_), nofun⟩
    exact cut_signExtend_self disp.toBitVec (by decide)
  | rel16 disp =>
    refine ⟨(h.rel _ _ hmem).trans (hdisp ?_), nofun⟩
    exact cut_signExtend_self disp.toBitVec (by decide)
  | rel32 disp =>
    refine ⟨(h.rel _ _ hmem).trans (hdisp ?_), nofun⟩
    exact disp.toBitVec.setWidth_eq
  | _ => exact ⟨(h.imm _ _ hmem).1, fun _ => (h.imm _ _ hmem).2⟩

/-! ### Encode calls -/

theorem extendedField_eq_iff {value : Immediate} {size : OperandSize}
    (hwidth : value.kind.isUnsigned → value.kind.bits.toNat ≤ size.bits) :
    extendedField value.kind.bits
        (littleEndian (value.kind.bits.toNat / 8) value.payload.toNat) size
        = BitVec.ofNat size.bits value.payload.toNat
      ↔ value.kind.isUnsigned = false ∨ value.kind.bits.toNat = size.bits
        ∨ value.toInt < 2 ^ (value.kind.bits.toNat - 1) := by
  have hfield : BitVec.ofNat value.kind.bits.toNat (ofLittleEndian
      (littleEndian (value.kind.bits.toNat / 8) value.payload.toBitVec.toNat)) = value.pattern := by
    rw [ofNat_ofLittleEndian _ value.kind.bits_eq_eight_mul, value.setWidth_payload]
  have hsize : size.bits ≤ 64 := by cases size <;> decide
  have hpayload : BitVec.ofNat size.bits value.payload.toNat
      = value.payload.toBitVec.setWidth size.bits := BitVec.ofNat_toNat _ _
  rw [extendedField, hpayload]
  change (BitVec.ofNat _ (ofLittleEndian
    (littleEndian _ value.payload.toBitVec.toNat))).signExtend size.bits = _ ↔ _
  rw [hfield]
  exact Immediate.pattern_signExtend_eq_iff hsize hwidth

/-- What is laid out has an operand size, which the stack never makes narrower. -/
theorem exists_requestedSize {setting : Setting} {operation : Operation} {ops : List Operand}
    {layout : Layout} (h : setting.layout operation ops = .ok layout) :
    ∃ size, operation.requestedSize setting = .ok size ∧ setting.size.bits ≤ size.bits := by
  have hstack {size : OperandSize} (hsize : setting.stackSize = .ok size) :
      setting.size.bits ≤ size.bits := by
    obtain ⟨mode, settingSize⟩ := setting
    cases mode <;> cases settingSize <;> cases hsize <;> decide
  cases operation with
  | push | pop =>
    obtain ⟨size, hsize, -⟩ := bind_eq_ok.mp h
    exact ⟨size, hsize, hstack hsize⟩
  | _ => exact ⟨setting.size, rfl, Nat.le_refl _⟩

theorem Layout.exists_bytes_eq (layout : Layout) :
    ∃ front, layout.bytes = front ++ layout.immediate :=
  ⟨_, rfl⟩

/-- The values of a request are operands of the instruction that it is encoded to. -/
theorem ofImmediate_mem {engine : Engine} {mode : Mode} {policy : DispPolicy} {req : Request}
    {inst : Instruction} (hinst : req.instruction? engine mode policy = some inst)
    {ops : List Operand} (hops : inst.requested.mapM readOperand = .ok ops) {value : Immediate}
    (hvalue : .imm value ∈ req.operands.toList) : ofImmediate value ∈ ops := by
  obtain ⟨-, -, -, hrequested⟩ := Request.instruction?_eq_some_iff.mp hinst
  obtain ⟨-, hresolved, -⟩ := exists_mem_of_mapM_eq_some hrequested
  obtain ⟨asked, hasked, hresolve⟩ := hresolved _ hvalue
  obtain ⟨op, hop, hread⟩ := (exists_mem_of_mapM_eq_ok hops).1 asked hasked
  rw [readOperand_of_immediate hresolve] at hread
  cases hread
  exact hop

/-- **Immediates are cut, and altered only if they are unsigned.** The last bytes of an encoded
request are the low bytes of its immediate or branch displacement. Where the processor extends an
immediate to the operand size, the value that it gets is the one that was asked for, unless the kind
is unsigned, narrower than the operand, and the value has its top bit set. -/
theorem encode_result_ends_in_immediate {actions : List TeamAction} {session : Session engine}
    (hsession : session ∈ ((Team.new engine).run actions).members) {req : Request}
    {value : Immediate} (hvalue : .imm value ∈ req.operands.toList) {bytes : List UInt8}
    (hresult : (session.encoder.encode req).result = .ok bytes) :
    ∃ front field operation setting,
      bytes = front ++ field
        ∧ field = littleEndian (value.kind.bits.toNat / 8) value.payload.toNat
        ∧ (mnemonic? (engine.classes.find req.mnemonic)).map Prod.snd = some operation
        ∧ Setting.ofBits session.encoder.mode req.size.effectiveBits = .ok setting
        ∧ (operation.extendsImmediate → ∃ size, operation.requestedSize setting = .ok size
          ∧ (extendedField value.kind.bits field size = BitVec.ofNat size.bits value.payload.toNat
            ↔ value.kind.isUnsigned = false ∨ value.kind.bits.toNat = size.bits
              ∨ value.toInt < 2 ^ (value.kind.bits.toNat - 1))) := by
  have hends := encode_ends (Team.faithful_run engine actions session hsession) req
  rw [hresult] at hends
  cases hends with
  | @written inst layout _ hinst hlayout =>
    have hcount := Request.length_requested_le hinst
    obtain ⟨operation, ops, setting, layout, hencoded⟩ :=
      exists_encoded_of_encode (encode_eq_of_layoutOf hcount hlayout)
    obtain ⟨hmode, hcls, hbits, -⟩ := Request.instruction?_eq_some_iff.mp hinst
    have hmem : ofImmediate value ∈ ops := ofImmediate_mem hinst hencoded.operands_eq hvalue
    obtain ⟨hfield, hwidth⟩ :=
      ((setting.layout_comesTo operation ops).endsIn hencoded.layout_eq).eq_littleEndian hmem
    obtain ⟨front, hfront⟩ := layout.exists_bytes_eq
    refine ⟨front, _, operation, setting, hencoded.bytes_eq.trans (hfront.trans (by rw [hfield])),
      rfl, ?_, ?_, fun _ => ?_⟩
    · rw [← hcls]
      exact hencoded.operation_eq
    · rw [← hmode, ← hbits]
      exact hencoded.setting_eq
    · obtain ⟨size, hsize, hle⟩ := exists_requestedSize hencoded.layout_eq
      exact ⟨size, hsize, extendedField_eq_iff fun h => Nat.le_trans (hwidth h) hle⟩

/-- ADD RCX, 80000000h adds another number, since the field of 32 bits is extended with its sign. -/
theorem encode_result_ends_in_immediate_topBit :
    let actions : List TeamAction :=
      [.act 0 (.request "ADD"), .act 0 (.step (.reg "RCX")),
        .act 0 (.step (.imm (.uint32 0x80000000))), .act 0 (.step (.size .bits64))]
    ∃ session ∈ ((Team.new engine).run actions).members,
      (MachineCode.Operand.imm (.uint32 0x80000000) ∈ session.request.operands.toList
          ∧ (session.encoder.encode session.request).result
            = .ok [0x48, 0x81, 0xC1, 0x00, 0x00, 0x00, 0x80])
        ∧ extendedField 32 [0x00, 0x00, 0x00, 0x80] .qword ≠ BitVec.ofNat 64 0x80000000 := by
  intro actions
  have hmember : 0 < ((Team.new engine).run actions).members.length := by decide +kernel
  let session := ((Team.new engine).run actions).members[0]
  have hvalue : .imm (.uint32 0x80000000) ∈ session.request.operands.toList := by
    decide +kernel +revert
  have hresult : (session.encoder.encode session.request).result
      = .ok [0x48, 0x81, 0xC1, 0x00, 0x00, 0x00, 0x80] := by decide +kernel +revert
  have hclass : (mnemonic? (engine.classes.find session.request.mnemonic)).map Prod.snd
      = some (.alu .add) := by decide +kernel +revert
  have hsetting : Setting.ofBits session.encoder.mode session.request.size.effectiveBits
      = .ok ⟨.mode64, .qword⟩ := by decide +kernel +revert
  refine ⟨session, List.getElem_mem hmember, ⟨hvalue, hresult⟩, ?_⟩
  obtain ⟨front, field, operation, setting, -, rfl, hoperation, hfound, hextends⟩ :=
    encode_result_ends_in_immediate (List.getElem_mem hmember) hvalue hresult
  obtain rfl : Operation.alu .add = operation := Option.some.inj (hclass.symm.trans hoperation)
  obtain rfl : Setting.mk .mode64 .qword = setting := Except.ok.inj (hsetting.symm.trans hfound)
  obtain ⟨size, hsize, hiff⟩ := hextends rfl
  cases hsize
  intro hsame
  exact absurd (hiff.mp hsame) (by decide)

end X86

end MachineCode
