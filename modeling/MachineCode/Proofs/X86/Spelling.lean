import Mathlib.Logic.Equiv.Defs
import MachineCode.Proofs.Session.Queries
import MachineCode.Proofs.X86.Tables
import MachineCode.X86.Meaning

/-!
# The spelling of names

Both tables are lists of entries of which the search takes the first that fits. As no canonical name
stands twice in a list, the place of an entry is found under its own name and no other, and ids lead to
canonical names and back. A lexicon in front of a table only repeats its answers.
-/

namespace MachineCode.X86

theorem capitals_capitals (name : String) : capitals (capitals name) = capitals name := by
  have hupper : Char.toUpper ∘ Char.toUpper = Char.toUpper := by
    funext c
    have hcapital : ¬ ('a'.val ≤ c.toUpper.val ∧ c.toUpper.val ≤ 'z'.val) := by
      delta Char.toUpper
      split <;> grind [UInt32.toNat_add, Char.toNat_val]
    exact dif_neg hcapital
  rw [capitals, capitals, String.map_map, hupper]

/-! ### Tables over lists of entries -/

section Entries

variable {α Id : Type} {entries : List α} {key : α → String} {name : String}

/-- The keys of the entries are in capitals, and none stands twice. -/
structure Canonical (entries : List α) (key : α → String) : Prop where
  capitals_key : ∀ entry ∈ entries, capitals (key entry) = key entry
  nodup : (entries.map key).Nodup
  length_lt : entries.length < UInt16.size

/-- The table in which the id of an entry is its place. -/
def tableOf (entries : List α) (key : α → String) (place : Id ≃ UInt16) : NameTable Id where
  find name := place.symm (tableId entries fun entry => key entry = capitals name)
  name? id := (entryAt? entries (place id)).map key

theorem mem_of_entryAt? {number : UInt16} {entry : α} (h : entryAt? entries number = some entry) :
    entry ∈ entries := by
  rw [entryAt?] at h
  split at h
  · cases h
  · exact List.mem_of_getElem? h

namespace Canonical

variable (h : Canonical entries key) (place : Id ≃ UInt16)
include h

theorem capitals_eq (hname : name ∈ entries.map key) : capitals name = name := by
  obtain ⟨entry, hmem, rfl⟩ := List.mem_map.mp hname
  exact h.capitals_key entry hmem

theorem tableId_ne_zero_iff_mem :
    tableId entries (fun entry => key entry = name) ≠ 0 ↔ name ∈ entries.map key := by
  rw [tableId_ne_zero_iff h.length_lt, List.mem_map]
  simp only [decide_eq_true_eq]

theorem name?_find (hname : capitals name ∈ entries.map key) :
    (tableOf entries key place).name? ((tableOf entries key place).find name)
      = some (capitals name) := by
  have hknown := h.tableId_ne_zero_iff_mem.mpr hname
  obtain ⟨entry, hentry, hkey⟩ := getElem?_tableId h.length_lt hknown
  simp only [tableOf, Equiv.apply_symm_apply, entryAt?, if_neg hknown, hentry, Option.map_some,
    of_decide_eq_true hkey]

theorem name?_eq_some_iff (id : Id) :
    (tableOf entries key place).name? id = some name ↔
      name ∈ entries.map key ∧ (tableOf entries key place).find name = id := by
  constructor
  · intro hid
    obtain ⟨entry, hentry, rfl⟩ := Option.map_eq_some_iff.mp hid
    have hmem := mem_of_entryAt? hentry
    refine ⟨List.mem_map_of_mem hmem, ?_⟩
    have hplace := tableId_of_entryAt? h.nodup hentry
    simp only [tableOf, h.capitals_key entry hmem, hplace, Equiv.symm_apply_apply]
  · rintro ⟨hname, rfl⟩
    have hcapitals := h.capitals_eq hname
    have hfound := h.name?_find place (hcapitals.symm ▸ hname)
    rwa [hcapitals] at hfound

theorem spells {isValid : Id → Bool} (hvalid : ∀ id, isValid id ↔ place id ≠ 0) :
    Spells (tableOf entries key place) isValid (entries.map key) where
  find_capitals name := by simp only [tableOf, capitals_capitals]
  isValid_find_iff name := by
    rw [hvalid, tableOf, Equiv.apply_symm_apply]
    exact h.tableId_ne_zero_iff_mem
  name?_find name := h.name?_find place
  name?_eq_some_iff id name := h.name?_eq_some_iff place id

end Canonical

end Entries

/-! ### The two tables -/

theorem canonical_registers : Canonical Register.all Register.name where
  capitals_key := by decide +kernel
  nodup := by decide +kernel
  length_lt := by decide

theorem canonical_mnemonics : Canonical mnemonics Prod.fst where
  capitals_key := by decide +kernel
  nodup := by decide +kernel
  length_lt := by decide

def registerPlace : RegisterId ≃ UInt16 :=
  ⟨RegisterId.number, RegisterId.mk, fun _ => rfl, fun _ => rfl⟩

def classPlace : ClassId ≃ UInt16 :=
  ⟨ClassId.number, ClassId.mk, fun _ => rfl, fun _ => rfl⟩

theorem isValid_register_iff (id : RegisterId) : id.isValid ↔ registerPlace id ≠ 0 := by
  rw [RegisterId.isValid, decide_eq_true_iff]
  exact not_congr registerPlace.injective.eq_iff.symm

theorem isValid_class_iff (id : ClassId) : id.isValid ↔ classPlace id ≠ 0 := by
  rw [ClassId.isValid, decide_eq_true_iff]
  exact not_congr classPlace.injective.eq_iff.symm

theorem spells_registers :
    Spells engine.registers RegisterId.isValid (Register.all.map Register.name) :=
  canonical_registers.spells registerPlace isValid_register_iff

theorem spells_classes :
    Spells engine.classes ClassId.isValid (mnemonics.map Prod.fst) :=
  canonical_mnemonics.spells classPlace isValid_class_iff

/-- **Names and ids.** The engine knows exactly its canonical register names and mnemonics, each in
any mixture of cases; a known name has the id of which it is the canonical name, and every id with a
canonical name is found under it. A lexicon spells the same names the same way, whatever was asked
of it before. -/
theorem lexicon_spells (asked : List Query) :
    let lex := Lexicon.after engine {} asked
    (Spells engine.registers RegisterId.isValid (Register.all.map Register.name)
        ∧ Spells (lex.registerTable engine) RegisterId.isValid (Register.all.map Register.name))
      ∧ Spells engine.classes ClassId.isValid (mnemonics.map Prod.fst)
        ∧ Spells (lex.classTable engine) ClassId.isValid (mnemonics.map Prod.fst) := by
  intro lex
  have hlex : lex.Faithful engine := (Lexicon.faithful_empty engine).after asked
  rw [hlex.registerTable_eq, hlex.classTable_eq]
  exact ⟨⟨spells_registers, spells_registers⟩, spells_classes, spells_classes⟩

end MachineCode.X86
