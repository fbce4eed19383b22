import MachineCode.Proofs.X86.Operations

/-!
# Stack instructions and branches read back

The operations that work on the stack size of a mode, and those that show no size at all. PUSH and
POP are read back in the stack size of the setting. PUSH of a byte is the exception: its opcode is
written without the prefix that selects the size, so it is read in the size of the mode.
-/

namespace MachineCode.X86

open Decoder

section Families

variable {setting : Setting} {ops : List Operand} {layout : Layout}

/-! ### The stack size -/

/-- A group entry that works on the stack size. -/
theorem stackGroup_readsBack {size selected : OperandSize} {operation : Operation}
    {opcode : UInt8} {digit : Fin 8} {target : RegOrMem}
    (hplain : ¬IsPrefix setting.mode opcode)
    (hsize : ∀ ctx : Context, ctx.Selects setting.mode selected false → ctx.stackSize = size)
    (hread : ∀ ctx : Context, ∃ entryOf,
      (∀ bytes, readOpcode ctx opcode.toNat bytes = readGroup ctx entryOf [] bytes)
        ∧ entryOf digit.val = some ⟨operation, ctx.stackSize, none⟩)
    (htarget : target.Fits size)
    (h : withModRm setting.mode selected false [opcode] (.digit digit) target = .ok layout) :
    ReadsBack setting.mode layout operation size [target.operand.expected setting.mode] := by
  obtain ⟨ctx, fields, hselects, hshows, hdecode⟩ := decode_withModRm h hplain
  obtain ⟨entryOf, hgroup, hentry⟩ := hread ctx
  rw [hsize ctx hselects] at hentry
  intro rest
  rw [hdecode, ← hselects.mode]
  exact (hgroup _).trans (readGroup_of_shows hshows htarget hentry [] rest)

theorem readOpcode_ff {digit : Nat} {operation : Operation}
    (hdigit : (digit, operation) ∈ [(2, Operation.call), (4, .jmp), (6, .push)]) (ctx : Context) :
    ∃ entryOf,
      (∀ bytes, readOpcode ctx (0xFF : UInt8).toNat bytes = readGroup ctx entryOf [] bytes)
        ∧ entryOf digit = some ⟨operation, ctx.stackSize, none⟩ := by
  have hfull : ctx.opcodeSize 0xFF = ctx.size := rfl
  refine ⟨stepEntry ctx ctx.size, fun bytes => by rw [← hfull]; rfl, ?_⟩
  simp only [List.mem_cons, Prod.mk.injEq, List.not_mem_nil, or_false] at hdigit
  rcases hdigit with ⟨rfl, rfl⟩ | ⟨rfl, rfl⟩ | ⟨rfl, rfl⟩ <;> exact if_neg ctx.size_ne_byte

theorem indirect_readsBack {digit : Fin 8} {operation : Operation} {op : Operand}
    (hdigit : (digit.val, operation) ∈ [(2, Operation.call), (4, .jmp), (6, .push)])
    (h : setting.indirect digit op = .ok layout) :
    ReadsBack setting.mode layout operation setting.branchSize [op.expected setting.mode] := by
  rw [Setting.indirect] at h
  obtain ⟨target, htarget, hrest⟩ := bind_eq_ok.mp h
  obtain ⟨rfl, hfits⟩ := checkRegOrMem_eq_ok htarget
  exact stackGroup_readsBack (by cases setting.mode <;> decide)
    (fun ctx hselects => hselects.stackSize_eq_branchSize) (readOpcode_ff hdigit) hfits hrest

/-! ### PUSH and POP -/

/-- A stack instruction on a register is one row of the opcode table. -/
theorem stackRegister_readsBack {size : OperandSize} {operation : Operation} {opcode : Nat}
    {reg : Register} (hplain : opcode = 0x50 ∨ opcode = 0x58)
    (hread : ∀ (ctx : Context) (bytes : List UInt8), ∀ code < 8,
      readOpcode ctx (opcode + code) bytes
        = some (⟨operation, ctx.stackSize,
            [.reg (ctx.opcodeRegister ctx.stackSize (opcode + code))]⟩, bytes))
    (hstack : setting.stackSize = .ok size)
    (h : setting.stackRegister size opcode reg = .ok layout) :
    ReadsBack setting.mode layout operation size [.reg reg] := by
  rw [Setting.stackRegister] at h
  obtain ⟨checked, hchecked, hrest⟩ := bind_eq_ok.mp h
  obtain ⟨rfl, hfits⟩ := checkRegister_eq_ok hchecked
  have hnot : ∀ code < 8, ¬IsPrefix setting.mode (UInt8.ofNat (opcode + code)) := by
    intro code hcode
    rcases hplain with rfl | rfl <;> cases setting.mode <;> interval_cases code <;> decide
  obtain ⟨ctx, code, hcode, hselects, hregister, hdecode⟩ :=
    decode_opcodeRegister (by omega) (by omega) hrest hnot hfits
  intro rest
  rw [hdecode, hread ctx _ code hcode, hselects.stackSize_eq hstack, hregister]
  rfl

theorem stackMemory_readsBack {size : OperandSize} {operation : Operation} {opcode : UInt8}
    {digit : Fin 8} {mem : Memory} (hplain : ¬IsPrefix setting.mode opcode)
    (hread : ∀ ctx : Context, ∃ entryOf,
      (∀ bytes, readOpcode ctx opcode.toNat bytes = readGroup ctx entryOf [] bytes)
        ∧ entryOf digit.val = some ⟨operation, ctx.stackSize, none⟩)
    (hstack : setting.stackSize = .ok size)
    (h : setting.stackMemory size opcode digit mem = .ok layout) :
    ReadsBack setting.mode layout operation size [.mem (mem.effective setting.mode)] := by
  rw [Setting.stackMemory] at h
  obtain ⟨target, htarget, hrest⟩ := bind_eq_ok.mp h
  obtain ⟨heq, hfits⟩ := checkRegOrMem_eq_ok htarget
  have hmem : Operand.expected setting.mode (.mem mem)
      = target.operand.expected setting.mode := by rw [heq]
  rw [show DecodedOperand.mem (mem.effective setting.mode) = _ from hmem]
  exact stackGroup_readsBack hplain (fun ctx hselects => hselects.stackSize_eq hstack) hread hfits
    hrest

/-- PUSH of a byte is read in the stack size of the mode, whatever size was asked for. -/
theorem pushByte_readsBack (value : UInt64) :
    ReadsBack setting.mode { opcode := [0x6A], immediate := immediateBytes value 8 } .push
      setting.branchSize [(Operand.imm value 8).expected setting.mode] := by
  intro rest
  rw [decode_layout_bytes rfl (by simp) (by cases setting.mode <;> decide)]
  have himmediate := readImmediate_immediateBytes (show 8 ∣ (8 : UInt8).toNat by decide) value
    setting.mode rest
  change (readImmediate 8 (immediateBytes value 8 ++ rest) >>= _) = _
  rw [show readImmediate 8 _ = _ from himmediate]
  cases hmode : setting.mode <;> simp [Setting.branchSize, hmode] <;> rfl

theorem pushImmediate_readsBack {size : OperandSize} {value : UInt64} {bits : UInt8}
    (hbits : bits.toNat = size.immediateBits) (hstack : setting.stackSize = .ok size)
    (h : withoutModRm setting.mode size false 0x68 none (immediateBytes value bits)
      = .ok layout) :
    ReadsBack setting.mode layout .push size
      [(Operand.imm value bits).expected setting.mode] := by
  obtain ⟨ctx, hselects, hdecode⟩ :=
    decode_withoutRegister (by decide) h (by cases setting.mode <;> decide)
  have hdvd : 8 ∣ bits.toNat := eight_dvd_of_immediateBits hbits
  intro rest
  have hread : readOpcode ctx 0x68 (immediateBytes value bits ++ rest)
      = some (⟨.push, ctx.stackSize, [(Operand.imm value bits).expected setting.mode]⟩, rest) := by
    simp only [readOpcode, hselects.stackSize_eq hstack, ← hbits,
      readImmediate_immediateBytes hdvd value setting.mode, Option.bind_eq_bind, Option.bind_some]
    rfl
  rw [hdecode, hread, hselects.stackSize_eq hstack]

theorem push_readsBack (h : setting.push ops = .ok layout) :
    ∃ size, setting.stackSize = .ok size
      ∧ ReadsBack setting.mode layout .push
          (if ops.any Operand.isByteImmediate then setting.branchSize else size)
          (ops.map (Operand.expected setting.mode)) := by
  rw [Setting.push] at h
  obtain ⟨size, hstack, hrest⟩ := bind_eq_ok.mp h
  refine ⟨size, hstack, ?_⟩
  split at hrest
  · exact stackRegister_readsBack (.inl rfl)
      (fun ctx bytes code hcode => by interval_cases code <;> rfl) hstack hrest
  · exact stackMemory_readsBack (by cases setting.mode <;> decide) (readOpcode_ff (by decide))
      hstack hrest
  · rename_i value bits
    split at hrest
    · rename_i hbyte
      subst hbyte
      cases hrest
      exact pushByte_readsBack value
    · rename_i hbyte
      have hnot : [Operand.imm value bits].any Operand.isByteImmediate = false := by
        simp [Operand.isByteImmediate, hbyte]
      split at hrest
      · rename_i hbits
        rw [hnot]
        exact pushImmediate_readsBack hbits hstack hrest
      · simp at hrest
  · simp at hrest
  · simp at hrest

theorem pop_readsBack (h : setting.pop ops = .ok layout) :
    ∃ size, setting.stackSize = .ok size
      ∧ ReadsBack setting.mode layout .pop size (ops.map (Operand.expected setting.mode)) := by
  rw [Setting.pop] at h
  obtain ⟨size, hstack, hrest⟩ := bind_eq_ok.mp h
  refine ⟨size, hstack, ?_⟩
  split at hrest
  · exact stackRegister_readsBack (.inr rfl)
      (fun ctx bytes code hcode => by interval_cases code <;> rfl) hstack hrest
  · have hread : ∀ ctx : Context, ∃ entryOf,
        (∀ bytes, readOpcode ctx (0x8F : UInt8).toNat bytes = readGroup ctx entryOf [] bytes)
          ∧ entryOf (0 : Fin 8).val = some ⟨.pop, ctx.stackSize, none⟩ := fun ctx =>
      ⟨onlyEntry ⟨.pop, ctx.stackSize, none⟩, fun _ => rfl, rfl⟩
    exact stackMemory_readsBack (by cases setting.mode <;> decide) hread hstack hrest
  · simp at hrest
  · simp at hrest

/-! ### Branches -/

/-- The opcodes of a relative branch, with one byte of displacement and with a full field. -/
structure RelativeOpcodes (mode : Mode) (operation : Operation) (short : Option UInt8)
    (near : List UInt8) : Prop where
  readShort : ∀ opcode ∈ short, ¬IsPrefix mode opcode ∧ ∀ (ctx : Context) (bytes : List UInt8),
    readOpcode ctx opcode.toNat bytes = readRelative operation ctx.stackSize 8 bytes
  readNear : ∃ opcode more, near = opcode :: more ∧ ¬IsPrefix mode opcode
    ∧ ∀ (ctx : Context) (bytes : List UInt8),
      readOpcode ctx opcode.toNat (more ++ bytes)
        = readRelative operation ctx.stackSize ctx.relativeBits bytes

theorem readRelative_littleEndian (operation : Operation) (size : OperandSize) (count value : Nat)
    (rest : List UInt8) :
    readRelative operation size (8 * count) (littleEndian count value ++ rest)
      = some (⟨operation, size, [.rel (8 * count) (value % fieldRange (8 * count))]⟩, rest) := by
  have hcount : 8 * count / 8 = count := Nat.mul_div_cancel_left count (by decide)
  simp only [readRelative, hcount, readField_littleEndian, Option.bind_eq_bind,
    Option.bind_some]
  rfl

theorem nearForm_readsBack {operation : Operation} {short : Option UInt8} {near : List UInt8}
    (hopcodes : RelativeOpcodes setting.mode operation short near) {operandPrefix : Bool}
    {count : Nat} (value : Nat)
    (hfull : Context.relativeBits { mode := setting.mode, operandPrefix } = 8 * count) :
    ∃ size, ReadsBack setting.mode
      { operandPrefix, opcode := near, immediate := littleEndian count value } operation size
      [.rel (8 * count) (value % fieldRange (8 * count))] := by
  obtain ⟨opcode, more, rfl, hplain, hread⟩ := hopcodes.readNear
  refine ⟨Context.stackSize { mode := setting.mode, operandPrefix }, fun rest => ?_⟩
  rw [decode_layout_bytes rfl (by simp) hplain, hread]
  change readRelative _ _ (Context.relativeBits { mode := setting.mode, operandPrefix }) _ = _
  rw [hfull]
  exact readRelative_littleEndian operation _ count value rest

theorem relative_readsBack {operation : Operation} {short : Option UInt8} {near : List UInt8}
    {disp : Int32} {bits : UInt8} (hopcodes : RelativeOpcodes setting.mode operation short near)
    (h : setting.relative short near disp bits = .ok layout) :
    ∃ size, ReadsBack setting.mode layout operation size
      [(Operand.rel disp bits).expected setting.mode] := by
  rw [Operand.expected]
  unfold Setting.relative at h
  split at h
  · rename_i hbits
    rw [hbits]
    split at h
    · simp at h
    rename_i opcode
    split at h
    · cases h
      obtain ⟨hplain, hread⟩ := hopcodes.readShort opcode rfl
      refine ⟨Context.stackSize { mode := setting.mode }, fun rest => ?_⟩
      rw [decode_layout_bytes rfl (by simp) hplain, List.nil_append, hread]
      exact readRelative_littleEndian operation _ 1 _ rest
    · simp at h
  · rename_i hbits
    rw [hbits]
    split at h
    · simp at h
    rename_i hmode
    split at h
    · cases h
      have hmode32 : setting.mode = .mode32 := Mode.eq_mode32_of_ne hmode
      exact nearForm_readsBack hopcodes _ (if_pos ⟨hmode32, rfl⟩)
    · simp at h
  · rename_i hbits
    rw [hbits]
    cases h
    exact nearForm_readsBack hopcodes _ (if_neg (by simp))
  · simp at h

theorem branch_readsBack {operation : Operation} {short : Option UInt8} {near : List UInt8}
    {digit : Fin 8} (hopcodes : RelativeOpcodes setting.mode operation short near)
    (hdigit : (digit.val, operation) ∈ [(2, Operation.call), (4, .jmp), (6, .push)])
    (h : setting.branch short near digit ops = .ok layout) :
    ∃ size, ReadsBack setting.mode layout operation size
      (ops.map (Operand.expected setting.mode)) := by
  unfold Setting.branch at h
  split at h
  · exact relative_readsBack hopcodes h
  · exact ⟨_, indirect_readsBack hdigit h⟩
  · exact ⟨_, indirect_readsBack hdigit h⟩
  · simp at h
  · simp at h

theorem relativeOpcodes_jmp (mode : Mode) : RelativeOpcodes mode .jmp (some 0xEB) [0xE9] where
  readShort := by
    rintro opcode ⟨⟩
    exact ⟨by cases mode <;> decide, fun _ _ => rfl⟩
  readNear := ⟨0xE9, [], rfl, by cases mode <;> decide, fun _ _ => rfl⟩

theorem relativeOpcodes_call (mode : Mode) : RelativeOpcodes mode .call none [0xE8] where
  readShort := by
    rintro opcode ⟨⟩
  readNear := ⟨0xE8, [], rfl, by cases mode <;> decide, fun _ _ => rfl⟩

theorem toNat_conditionOpcode {opcode : Nat} (hopcode : opcode ≤ 0xF0) (condition : Fin 16) :
    (UInt8.ofNat (opcode + condition)).toNat = opcode + condition := by
  have hlt := condition.isLt
  rw [UInt8.toNat_ofNat', Nat.mod_eq_of_lt (by omega)]

theorem ofNat_conditionOpcode {opcode : Nat} (hopcode : opcode % 16 = 0) (condition : Fin 16) :
    Fin.ofNat 16 (opcode + condition) = condition := by
  have hlt := condition.isLt
  apply Fin.ext
  simp only [Fin.ofNat]
  omega

theorem readTwoByte_jumpIf (ctx : Context) (condition : Fin 16) (bytes : List UInt8) :
    readTwoByte ctx (UInt8.ofNat (0x80 + condition) :: bytes)
      = readRelative (.jumpIf condition) ctx.stackSize ctx.relativeBits bytes := by
  have hlt := condition.isLt
  simp only [readTwoByte, readField_one_cons, Option.bind_eq_bind, Option.bind_some,
    toNat_conditionOpcode (show 0x80 ≤ 0xF0 by decide) condition]
  rw [if_pos (by omega), ofNat_conditionOpcode rfl]

theorem readOpcode_jumpIf (ctx : Context) (condition : Fin 16) (bytes : List UInt8) :
    readOpcode ctx (0x70 + condition) bytes
      = readRelative (.jumpIf condition) ctx.stackSize 8 bytes := by
  have hrow : ∀ number < 16, readOpcode ctx (0x70 + number) bytes
      = readRelative (.jumpIf (Fin.ofNat 16 (0x70 + number))) ctx.stackSize 8 bytes := by
    intro number hnumber
    interval_cases number <;> rfl
  rw [hrow condition condition.isLt, ofNat_conditionOpcode rfl]

theorem relativeOpcodes_jumpIf (mode : Mode) (condition : Fin 16) :
    RelativeOpcodes mode (.jumpIf condition) (some (UInt8.ofNat (0x70 + condition)))
      [0x0F, UInt8.ofNat (0x80 + condition)] where
  readShort := by
    have hbyte := toNat_conditionOpcode (show 0x70 ≤ 0xF0 by decide) condition
    have hlt := condition.isLt
    rintro opcode ⟨⟩
    refine ⟨not_isPrefix_of_toNat hbyte (by omega) mode, fun ctx bytes => ?_⟩
    rw [hbyte, readOpcode_jumpIf]
  readNear := ⟨0x0F, [UInt8.ofNat (0x80 + condition)], rfl, by cases mode <;> decide,
    fun ctx bytes => readTwoByte_jumpIf ctx condition bytes⟩

theorem jumpIf_readsBack {condition : Fin 16} (h : setting.jumpIf condition ops = .ok layout) :
    ∃ size, ReadsBack setting.mode layout (.jumpIf condition) size
      (ops.map (Operand.expected setting.mode)) := by
  unfold Setting.jumpIf at h
  split at h
  · exact relative_readsBack (relativeOpcodes_jumpIf setting.mode condition) h
  · simp at h
  · simp at h

/-! ### Interrupts and system instructions -/

theorem interruptForm_readsBack (mode : Mode) (h : interruptForm ops = .ok layout) :
    ∃ size, ReadsBack mode layout .int size (ops.map (Operand.expected mode)) := by
  unfold interruptForm at h
  split at h
  · rename_i value bits
    split at h
    · rename_i hbits
      subst hbits
      cases h
      refine ⟨.dword, fun rest => ?_⟩
      have himmediate :=
        readImmediate_immediateBytes (show 8 ∣ (8 : UInt8).toNat by decide) value mode rest
      rw [decode_layout_bytes rfl (by simp) (by cases mode <;> decide)]
      change (readImmediate 8 (immediateBytes value 8 ++ rest) >>= _) = _
      rw [show readImmediate 8 _ = _ from himmediate]
      rfl
    · simp at h
  · simp at h
  · simp at h

theorem systemForm_readsBack (mode : Mode) {op : SystemOp} (h : systemForm op ops = .ok layout) :
    ∃ size, ReadsBack mode layout (.system op) size (ops.map (Operand.expected mode)) := by
  unfold systemForm at h
  split at h
  · cases h
    have hopcode : ∃ opcode more, op.opcode = opcode :: more ∧ ¬IsPrefix mode opcode := by
      cases op <;> exact ⟨_, _, rfl, by cases mode <;> decide⟩
    obtain ⟨opcode, more, heq, hplain⟩ := hopcode
    have hread : ∃ size, ∀ rest,
        readOpcode { mode } opcode.toNat (more ++ rest) = some (⟨.system op, size, []⟩, rest) := by
      cases op with
      | syscall =>
        cases heq
        exact ⟨_, fun rest => (readTwoByte_eq _ rest).1⟩
      | cpuid =>
        cases heq
        exact ⟨_, fun rest => (readTwoByte_eq _ rest).2.1⟩
      | _ =>
        cases heq
        exact ⟨_, fun rest => rfl⟩
    obtain ⟨size, hread⟩ := hread
    exact ⟨size, fun rest => (decode_layout_bytes heq (by simp) hplain rest).trans (hread rest)⟩
  · simp at h

end Families

end MachineCode.X86
