import MachineCode.Proofs.Address.Separators
import MachineCode.Proofs.Results

/-!
# Register parts

The reader of register parts accepts the four forms of the grammar and no others. The first plus and
the first star of a text in one of the forms are its own, because names hold no operators.
-/

namespace MachineCode.AddressExpr

section Names

variable {expr name : List Char} {read : String}

theorem any_isOperator_eq_false_iff :
    name.any isOperator = false ↔ '+' ∉ name ∧ '-' ∉ name ∧ '*' ∉ name := by
  simp only [List.any_eq_false, isOperator, Bool.or_eq_true, decide_eq_true_eq]
  constructor
  · intro h
    exact ⟨fun hmem => h _ hmem (.inl (.inl rfl)), fun hmem => h _ hmem (.inl (.inr rfl)),
      fun hmem => h _ hmem (.inr rfl)⟩
  · rintro ⟨hplus, hminus, hstar⟩ c hmem ((rfl | rfl) | rfl)
    · exact hplus hmem
    · exact hminus hmem
    · exact hstar hmem

theorem readName_eq_ok_iff :
    readName expr name = .ok read ↔ IsName name ∧ String.ofList name = read := by
  rw [readName, IsName, ← any_isOperator_eq_false_iff]
  cases hempty : name.isEmpty with
  | true => simp [List.isEmpty_iff.mp hempty]
  | false =>
    have hne : name ≠ [] := by simpa using hempty
    cases name.any isOperator <;> simp [hne]

theorem IsName.readName_eq (h : IsName name) (expr : List Char) :
    readName expr name = .ok (String.ofList name) :=
  readName_eq_ok_iff.mpr ⟨h, rfl⟩

end Names

section Scales

variable {text : List Char} {scale : UInt8}

theorem readScale_eq_ok_iff : readScale text = .ok scale ↔ IsScale text scale := by
  constructor
  · intro h
    rw [readScale.eq_def] at h
    split at h <;> cases h
    · exact .one
    · exact .two
    · exact .four
    · exact .eight
  · intro h
    cases h <;> rfl

theorem IsScale.not_operator (h : IsScale text scale) : '+' ∉ text ∧ '-' ∉ text ∧ '*' ∉ text := by
  cases h <;> decide

end Scales

section Terms

variable {expr term : List Char} {registers : AddressExpr}

theorem isTerm_of_readTerm (h : readTerm expr term = .ok registers) : IsTerm term registers := by
  rw [readTerm.eq_def] at h
  split at h
  · split at h
    · obtain ⟨base, hbase, hread⟩ := bind_eq_ok.mp h
      cases hread
      obtain ⟨hname, rfl⟩ := readName_eq_ok_iff.mp hbase
      exact .base hname
    · rename_i index text hsplit
      obtain ⟨rfl, -⟩ := splitFirst_eq_some_iff.mp hsplit
      obtain ⟨index', hindex, h⟩ := bind_eq_ok.mp h
      obtain ⟨scale, hscale, hread⟩ := bind_eq_ok.mp h
      cases hread
      obtain ⟨hname, rfl⟩ := readName_eq_ok_iff.mp hindex
      exact .index hname (readScale_eq_ok_iff.mp hscale)
  · rename_i base rest hplus
    obtain ⟨rfl, -⟩ := splitFirst_eq_some_iff.mp hplus
    split at h
    · cases h
    split at h
    · obtain ⟨base', hbase, h⟩ := bind_eq_ok.mp h
      obtain ⟨index', hindex, hread⟩ := bind_eq_ok.mp h
      cases hread
      obtain ⟨hbaseName, rfl⟩ := readName_eq_ok_iff.mp hbase
      obtain ⟨hindexName, rfl⟩ := readName_eq_ok_iff.mp hindex
      exact .baseIndex hbaseName hindexName
    · rename_i index text hsplit
      obtain ⟨rfl, -⟩ := splitFirst_eq_some_iff.mp hsplit
      obtain ⟨base', hbase, h⟩ := bind_eq_ok.mp h
      obtain ⟨index', hindex, h⟩ := bind_eq_ok.mp h
      obtain ⟨scale, hscale, hread⟩ := bind_eq_ok.mp h
      cases hread
      obtain ⟨hbaseName, rfl⟩ := readName_eq_ok_iff.mp hbase
      obtain ⟨hindexName, rfl⟩ := readName_eq_ok_iff.mp hindex
      have hterm := IsTerm.baseIndexScale hbaseName hindexName (readScale_eq_ok_iff.mp hscale)
      rwa [List.append_assoc, List.cons_append] at hterm

theorem IsTerm.readTerm_eq (h : IsTerm term registers) (expr : List Char) :
    readTerm expr term = .ok registers := by
  rw [readTerm.eq_def]
  cases h with
  | base hbase =>
    rw [splitFirst_eq_none_iff.mpr hbase.2.1, splitFirst_eq_none_iff.mpr hbase.2.2.2]
    simp only [hbase.readName_eq]
    rfl
  | @index index text scale hindex hscale =>
    have hplus : '+' ∉ index ++ '*' :: text := by
      simp [hindex.2.1, hscale.not_operator.1]
    rw [splitFirst_eq_none_iff.mpr hplus, splitFirst_append hindex.2.2.2]
    simp only [hindex.readName_eq, readScale_eq_ok_iff.mpr hscale]
    rfl
  | @baseIndex base index hbase hindex =>
    have hstar : base.contains '*' = false := by simpa using hbase.2.2.2
    have hscale : splitFirst '*' index = none := splitFirst_eq_none_iff.mpr hindex.2.2.2
    rw [splitFirst_append hbase.2.1]
    simp only [hstar, hscale, hbase.readName_eq, hindex.readName_eq]
    rfl
  | @baseIndexScale base index text scale hbase hindex hscale =>
    have hstar : base.contains '*' = false := by simpa using hbase.2.2.2
    rw [List.append_assoc, List.cons_append, splitFirst_append hbase.2.1]
    simp only [hstar, splitFirst_append hindex.2.2.2, hbase.readName_eq, hindex.readName_eq,
      readScale_eq_ok_iff.mpr hscale]
    rfl

theorem readTerm_eq_ok_iff : readTerm expr term = .ok registers ↔ IsTerm term registers :=
  ⟨isTerm_of_readTerm, fun h => h.readTerm_eq expr⟩

theorem IsTerm.unique {other : AddressExpr} (h : IsTerm term registers)
    (hother : IsTerm term other) : registers = other := by
  have heq := (h.readTerm_eq term).symm.trans (hother.readTerm_eq term)
  exact Except.ok.inj heq

theorem IsTerm.ne_nil (h : IsTerm term registers) : term ≠ [] := by
  cases h with
  | base hbase => exact hbase.1
  | _ => simp

end Terms

end MachineCode.AddressExpr
