import MachineCode.X86.Decoder

/-!
# The parts of an instruction read back

Fields, the three bytes that are made of bits, and the prefixes. The bytes of a layout are read as
its opcode under a context that has exactly the prefixes of the layout, which is what lets every
later module reason about contexts and never about bytes in front of the opcode.
-/

namespace MachineCode

theorem Mode.eq_mode64_of_ne {mode : Mode} (h : mode ≠ .mode32) : mode = .mode64 := by
  cases mode with
  | mode32 => exact absurd rfl h
  | mode64 => rfl

theorem Mode.eq_mode32_of_ne {mode : Mode} (h : mode ≠ .mode64) : mode = .mode32 := by
  cases mode with
  | mode32 => rfl
  | mode64 => exact absurd rfl h

namespace X86

/-! ### Bytes made of bits -/

theorem Rex.toNat_byte (rex : Rex) :
    rex.byte.toNat
      = 0x40 + 8 * rex.w.toNat + 4 * rex.r.toNat + 2 * rex.x.toNat + rex.b.toNat := by
  obtain ⟨w, r, x, b⟩ := rex
  cases w <;> cases r <;> cases x <;> cases b <;> rfl

@[simp]
theorem Decoder.rexOfByte_byte (rex : Rex) : rexOfByte rex.byte.toNat = rex := by
  obtain ⟨w, r, x, b⟩ := rex
  cases w <;> cases r <;> cases x <;> cases b <;> rfl

theorem Rex.toNat_byte_div (rex : Rex) : rex.byte.toNat / 16 = 4 := by
  have hw := rex.w.toNat_le
  have hr := rex.r.toNat_le
  have hx := rex.x.toNat_le
  have hb := rex.b.toNat_le
  rw [toNat_byte]
  omega

theorem ModRm.toNat_byte (modRm : ModRm) :
    modRm.byte.toNat = 64 * modRm.mod.val + 8 * modRm.reg.val + modRm.rm.val := by
  have hmod := modRm.mod.isLt
  have hreg := modRm.reg.isLt
  have hrm := modRm.rm.isLt
  rw [byte, UInt8.toNat_ofNat']
  omega

theorem Sib.toNat_byte (sib : Sib) :
    sib.byte.toNat = 64 * sib.scale.val + 8 * sib.index.val + sib.base.val := by
  have hscale := sib.scale.isLt
  have hindex := sib.index.isLt
  have hbase := sib.base.isLt
  rw [byte, UInt8.toNat_ofNat']
  omega

namespace Decoder

/-! ### Fields -/

theorem readField_append {count : Nat} {field : List UInt8} (hlength : field.length = count)
    (rest : List UInt8) :
    readField count (field ++ rest) = some (ofLittleEndian field, rest) := by
  have hle : count ≤ (field ++ rest).length := by
    rw [List.length_append]
    omega
  rw [readField, if_pos hle, List.take_left' hlength, List.drop_left' hlength]

@[simp]
theorem readField_one_cons (byte : UInt8) (rest : List UInt8) :
    readField 1 (byte :: rest) = some (byte.toNat, rest) := by
  have hfield : readField 1 ([byte] ++ rest) = some (ofLittleEndian [byte], rest) :=
    readField_append (show [byte].length = 1 from rfl) rest
  simpa [ofLittleEndian] using hfield

theorem readField_littleEndian (count value : Nat) (rest : List UInt8) :
    readField count (littleEndian count value ++ rest)
      = some (value % fieldRange (8 * count), rest) := by
  rw [readField_append (length_littleEndian count value), ofLittleEndian_littleEndian]

/-! ### Prefixes -/

/-- In the given mode the byte is read as a prefix, and so cannot be an opcode. -/
def IsPrefix (mode : Mode) (byte : UInt8) : Prop :=
  byte = 0x66 ∨ byte = 0x67 ∨ (mode = .mode64 ∧ byte.toNat / 16 = 4)

instance (mode : Mode) (byte : UInt8) : Decidable (IsPrefix mode byte) :=
  inferInstanceAs (Decidable (_ ∨ _ ∨ (_ ∧ _)))

theorem not_isPrefix_of_toNat {byte : UInt8} {value : Nat} (hbyte : byte.toNat = value)
    (hvalue : value / 16 ≠ 4 ∧ value ≠ 0x66 ∧ value ≠ 0x67) (mode : Mode) :
    ¬IsPrefix mode byte := by
  obtain ⟨hrex, h66, h67⟩ := hvalue
  rintro (rfl | rfl | ⟨-, hdiv⟩)
  · exact h66 hbyte.symm
  · exact h67 hbyte.symm
  · rw [hbyte] at hdiv
    exact hrex hdiv

theorem readPrefixes_opcode {ctx : Context} {opcode : UInt8} (hopcode : ¬IsPrefix ctx.mode opcode)
    (rest : List UInt8) : readPrefixes ctx (opcode :: rest) = (ctx, opcode :: rest) := by
  simp only [IsPrefix, not_or] at hopcode
  obtain ⟨hoperand, haddress, hrex⟩ := hopcode
  rw [readPrefixes, if_neg hoperand, if_neg haddress, if_neg hrex]

theorem readPrefixes_operandPrefix (ctx : Context) (bytes : List UInt8) :
    readPrefixes ctx (0x66 :: bytes) = readPrefixes { ctx with operandPrefix := true } bytes := by
  rw [readPrefixes, if_pos rfl]

theorem readPrefixes_addressPrefix (ctx : Context) (bytes : List UInt8) :
    readPrefixes ctx (0x67 :: bytes) = readPrefixes { ctx with addressPrefix := true } bytes := by
  rw [readPrefixes, if_neg (by decide), if_pos rfl]

theorem readPrefixes_rex {ctx : Context} (hmode : ctx.mode = .mode64) (rex : Rex)
    (bytes : List UInt8) :
    readPrefixes ctx (rex.byte :: bytes) = ({ ctx with rex := some rex }, bytes) := by
  have hdiv := rex.toNat_byte_div
  have hoperand : rex.byte ≠ 0x66 := by
    intro heq
    simp [heq] at hdiv
  have haddress : rex.byte ≠ 0x67 := by
    intro heq
    simp [heq] at hdiv
  rw [readPrefixes, if_neg hoperand, if_neg haddress, if_pos ⟨hmode, hdiv⟩, rexOfByte_byte]

end Decoder

/-- The mode and prefixes under which the opcode of a layout is read. -/
def Layout.context (layout : Layout) (mode : Mode) : Decoder.Context where
  mode
  operandPrefix := layout.operandPrefix
  addressPrefix := layout.addressPrefix
  rex := layout.rex

/-- What a layout has behind its opcode. -/
def Layout.body (layout : Layout) : List UInt8 :=
  (layout.modRm.map ModRm.bytes).getD [] ++ layout.immediate

namespace Decoder

theorem readPrefixes_layout {layout : Layout} {mode : Mode} {opcode : UInt8}
    (hrex : layout.rex.isSome → mode = .mode64) (hopcode : ¬IsPrefix mode opcode)
    (rest : List UInt8) :
    readPrefixes { mode }
        ((if layout.operandPrefix then [0x66] else [])
          ++ ((if layout.addressPrefix then [0x67] else [])
            ++ ((layout.rex.map Rex.byte).toList ++ opcode :: rest)))
      = (layout.context mode, opcode :: rest) := by
  obtain ⟨operandPrefix, addressPrefix, rex, _, _, _⟩ := layout
  have hlast : ∀ ctx : Context, ctx.mode = mode → ctx.rex = none →
      readPrefixes ctx ((rex.map Rex.byte).toList ++ opcode :: rest)
        = ({ ctx with rex }, opcode :: rest) := by
    intro ctx hmode hnone
    cases rex with
    | none =>
      have hsame : { ctx with rex := none } = ctx := by rw [← hnone]
      rw [← hmode] at hopcode
      rw [hsame]
      exact readPrefixes_opcode hopcode rest
    | some rex =>
      have hmode64 : ctx.mode = .mode64 := hmode.trans (hrex rfl)
      exact readPrefixes_rex hmode64 rex (opcode :: rest)
  cases operandPrefix <;> cases addressPrefix
  · exact hlast { mode } rfl rfl
  · exact (readPrefixes_addressPrefix _ _).trans (hlast _ rfl rfl)
  · exact (readPrefixes_operandPrefix _ _).trans (hlast _ rfl rfl)
  · exact (readPrefixes_operandPrefix _ _).trans
      ((readPrefixes_addressPrefix _ _).trans (hlast _ rfl rfl))

/-- The bytes of a layout are read as its opcode under its own prefixes. -/
theorem decode_layout_bytes {layout : Layout} {mode : Mode} {opcode : UInt8} {more : List UInt8}
    (heq : layout.opcode = opcode :: more) (hrex : layout.rex.isSome → mode = .mode64)
    (hopcode : ¬IsPrefix mode opcode) (rest : List UInt8) :
    decode mode (layout.bytes ++ rest)
      = readOpcode (layout.context mode) opcode.toNat (more ++ (layout.body ++ rest)) := by
  have hprefixes := readPrefixes_layout hrex hopcode (more ++ (layout.body ++ rest))
  have hbytes : layout.bytes ++ rest
      = (if layout.operandPrefix then [0x66] else [])
        ++ ((if layout.addressPrefix then [0x67] else [])
          ++ ((layout.rex.map Rex.byte).toList
            ++ opcode :: (more ++ (layout.body ++ rest)))) := by
    simp only [Layout.bytes, Layout.body, heq, List.append_assoc, List.cons_append]
  rw [decode, hbytes, hprefixes]
  simp only [readField_one_cons, Option.bind_eq_bind, Option.bind_some]

end Decoder

end X86

end MachineCode
