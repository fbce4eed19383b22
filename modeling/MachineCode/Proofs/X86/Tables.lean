import MachineCode.Proofs.Results
import MachineCode.X86.Engine

/-!
# The tables of the engine

The id that a table gives to a name is 0 for no entry, and otherwise leads back to the entry. An id
that leads nowhere is refused wherever it stands for a class or for a register operand.
-/

namespace MachineCode.X86

theorem getElem?_tableId {α : Type} {table : List α} {test : α → Bool}
    (hlength : table.length < UInt16.size) (hknown : tableId table test ≠ 0) :
    ∃ entry, table[(tableId table test).toNat - 1]? = some entry ∧ test entry := by
  rw [tableId] at hknown ⊢
  cases hfound : table.findIdx? test with
  | none => simp [hfound] at hknown
  | some index =>
    obtain ⟨hindex, htest, -⟩ := List.findIdx?_eq_some_iff_getElem.mp hfound
    have htoNat : (UInt16.ofNat (index + 1)).toNat = index + 1 :=
      UInt16.toNat_ofNat_of_lt (by omega)
    refine ⟨table[index], ?_, htest⟩
    simp only [htoNat, Nat.add_sub_cancel]
    exact List.getElem?_eq_getElem hindex

/-- The number of a test is 0 only if no entry passes it. -/
theorem tableId_ne_zero_iff {α : Type} {table : List α} {test : α → Bool}
    (hlength : table.length < UInt16.size) :
    tableId table test ≠ 0 ↔ ∃ entry ∈ table, test entry := by
  constructor
  · intro hknown
    obtain ⟨entry, hentry, htest⟩ := getElem?_tableId hlength hknown
    exact ⟨entry, List.mem_of_getElem? hentry, htest⟩
  · rintro ⟨entry, hmem, htest⟩ hzero
    rw [tableId] at hzero
    cases hfound : table.findIdx? test with
    | none =>
      have hfalse : test entry = false := List.findIdx?_eq_none_iff.mp hfound entry hmem
      rw [htest] at hfalse
      cases hfalse
    | some index =>
      obtain ⟨hindex, -⟩ := List.findIdx?_eq_some_iff_getElem.mp hfound
      have htoNat : (UInt16.ofNat (index + 1)).toNat = index + 1 :=
        UInt16.toNat_ofNat_of_lt (by omega)
      simp only [hfound] at hzero
      rw [hzero] at htoNat
      cases htoNat

/-- The entry of a number: numbers count from 1. -/
def entryAt? {α : Type} (table : List α) (number : UInt16) : Option α :=
  if number = 0 then none else table[number.toNat - 1]?

/-- If no key stands twice, the number of an entry is found under its key. -/
theorem tableId_of_entryAt? {α : Type} {table : List α} {key : α → String} {number : UInt16}
    {entry : α} (hnodup : (table.map key).Nodup) (hentry : entryAt? table number = some entry) :
    tableId table (fun other => key other = key entry) = number := by
  rw [entryAt?] at hentry
  split at hentry
  · cases hentry
  · rename_i hzero
    obtain ⟨hindex, rfl⟩ := List.getElem?_eq_some_iff.mp hentry
    have hpos : number.toNat ≠ 0 := by
      intro htoNat
      exact hzero (UInt16.toNat_inj.mp htoNat)
    have hfirst : table.findIdx? (fun other => key other = key table[number.toNat - 1])
        = some (number.toNat - 1) := by
      rw [List.findIdx?_eq_some_iff_getElem]
      refine ⟨hindex, decide_eq_true rfl, ?_⟩
      intro earlier hearlier hsame
      have hkey : (table.map key)[earlier]? = (table.map key)[number.toNat - 1]? := by
        rw [List.getElem?_map, List.getElem?_map, List.getElem?_eq_getElem (by omega),
          List.getElem?_eq_getElem hindex]
        exact congrArg some (of_decide_eq_true hsame)
      have hbound : earlier < (table.map key).length := by
        rw [List.length_map]
        omega
      have heq : earlier = number.toNat - 1 := (List.getElem?_inj hbound hnodup).mp hkey
      omega
    have hplace : number.toNat - 1 + 1 = number.toNat := by omega
    simp only [tableId, hfirst, hplace, UInt16.ofNat_toNat]

theorem exists_mnemonic_of_find {name : String} (hknown : engine.classes.find name ≠ .invalid) :
    ∃ entry, mnemonic? (engine.classes.find name) = some entry := by
  have hid : (engine.classes.find name).number ≠ 0 := by
    intro hzero
    apply hknown
    exact congrArg ClassId.mk hzero
  obtain ⟨entry, hentry, -⟩ := getElem?_tableId (show mnemonics.length < UInt16.size by decide) hid
  refine ⟨entry, ?_⟩
  rw [mnemonic?, if_neg hid]
  exact hentry

/-! ### Unknown ids -/

theorem encode_of_layoutOf_error {inst : Instruction} {code : RefusalCode}
    (hcount : inst.requested.length ≤ operandLimit) (h : layoutOf inst = .error code) :
    encode inst = .error (.refused ⟨code⟩) := by
  have hcarried : ¬operandLimit < inst.operandCount := by
    rw [Instruction.operandCount]
    omega
  rw [encode, if_neg hcarried, h]

theorem encode_of_unknown_class {inst : Instruction}
    (hcount : inst.requested.length ≤ operandLimit) (hclass : mnemonic? inst.cls = none) :
    encode inst = .error (.refused ⟨.badClass⟩) := by
  apply encode_of_layoutOf_error hcount
  rw [layoutOf, hclass]

theorem readRegister_eq_error {id : RegisterId} {code : RefusalCode}
    (h : readRegister id = .error code) : code = .badRegister := by
  rw [readRegister] at h
  split at h
  · cases h
  · cases h
    rfl

theorem readAddressRegister_eq_error {id : RegisterId} {code : RefusalCode}
    (h : readAddressRegister id = .error code) : code = .badRegister := by
  rw [readAddressRegister] at h
  split at h
  · cases hread : readRegister id with
    | error refused =>
      rw [hread] at h
      cases h
      exact readRegister_eq_error hread
    | ok reg =>
      rw [hread] at h
      cases h
  · cases h

theorem readOperand_eq_error {asked : ResolvedOperand} {code : RefusalCode}
    (h : readOperand asked = .error code) : code = .badRegister := by
  cases asked with
  | reg id =>
    obtain hread | ⟨reg, -, hrest⟩ := bind_eq_error.mp h
    · exact readRegister_eq_error hread
    · cases hrest
  | mem memory =>
    obtain hbase | ⟨base, -, hrest⟩ := bind_eq_error.mp h
    · exact readAddressRegister_eq_error hbase
    · obtain hindex | ⟨index, -, hop⟩ := bind_eq_error.mp hrest
      · exact readAddressRegister_eq_error hindex
      · cases hop
  | unsigned | signed | relative => cases h

/-- One register operand that is in no table refuses them all. -/
theorem mapM_readOperand_of_unknown {asked : List ResolvedOperand} {id : RegisterId}
    (hmem : .reg id ∈ asked) (hid : Register.ofId? id = none) :
    asked.mapM readOperand = .error .badRegister := by
  induction asked with
  | nil => cases hmem
  | cons first asked ih =>
    rw [List.mapM_cons]
    cases hfirst : readOperand first with
    | error code =>
      rw [readOperand_eq_error hfirst]
      rfl
    | ok op =>
      have hrest : .reg id ∈ asked := by
        rcases List.mem_cons.mp hmem with rfl | hrest
        · obtain ⟨reg, hreg, -⟩ := bind_eq_ok.mp hfirst
          rw [readRegister, hid] at hreg
          cases hreg
        · exact hrest
      rw [ih hrest]
      rfl

theorem encode_of_unknown_register {inst : Instruction} {id : RegisterId}
    (hcount : inst.requested.length ≤ operandLimit) {entry : String × Operation}
    (hclass : mnemonic? inst.cls = some entry) (hmem : .reg id ∈ inst.requested)
    (hid : Register.ofId? id = none) :
    encode inst = .error (.refused ⟨.badRegister⟩) := by
  apply encode_of_layoutOf_error hcount
  rw [layoutOf, hclass]
  have hcarried : inst.operands = inst.requested := List.take_of_length_le hcount
  simp only [hcarried, mapM_readOperand_of_unknown hmem hid]
  rfl

end MachineCode.X86
