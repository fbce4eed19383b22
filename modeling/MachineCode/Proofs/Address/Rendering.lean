import MachineCode.Proofs.Address.Language

/-!
# Rendering

The text of an address that was read has the register part of the text it was read from, and a
suffix of the same value. So it reads back as the same address, unless the suffix that vanished, the
one of a zero displacement, had kept a numeric index from being taken for a displacement.
-/

namespace MachineCode.AddressExpr

section RegisterPart

variable {term text : List Char} {registers : AddressExpr} {scale : UInt8}

theorem IsScale.toDigits_eq (h : IsScale text scale) :
    Nat.toDigits 10 scale.toNat = text ∧ max scale.toNat 1 = scale.toNat ∧ scale ≠ 0 := by
  cases h <;> decide

theorem IsName.ofList_ne {name : List Char} (h : IsName name) : String.ofList name ≠ "" := by
  intro heq
  apply h.1
  simpa using congrArg String.toList heq

theorem IsName.isEmpty_eq_false {name : List Char} (h : IsName name) :
    (String.ofList name).isEmpty = false := by
  simpa using h.ofList_ne

/-- The register part of a text is the one that is written for its registers. -/
theorem IsTerm.toList_registersText (h : IsTerm term registers) :
    registers.registersText.toList = term := by
  cases h with
  | base _ => simp [registersText, ofBase]
  | index hindex hscale =>
    obtain ⟨htext, hmax, -⟩ := hscale.toDigits_eq
    simp [registersText, ofIndex, hindex.isEmpty_eq_false, hmax, htext]
  | baseIndex hbase hindex =>
    simp [registersText, ofBaseIndex, hbase.isEmpty_eq_false, hindex.isEmpty_eq_false]
  | baseIndexScale hbase hindex hscale =>
    obtain ⟨htext, -, hne⟩ := hscale.toDigits_eq
    simp [registersText, ofBaseIndex, hbase.isEmpty_eq_false, hindex.isEmpty_eq_false, htext, hne]

end RegisterPart

theorem isSuffix_dispText (disp : Int32) : IsSuffix (dispText disp).toList disp.toInt := by
  have hlow := Int32.le_toInt disp
  have hhigh := Int32.toInt_lt disp
  have hliteral : IsLiteral (Hex.numeral disp.toInt.natAbs).toList disp.toInt.natAbs := by
    rw [Hex.numeral, String.toList_ofList]
    exact .hex (isNumeral_digits disp.toInt.natAbs)
  by_cases hzero : disp = 0
  · subst hzero
    exact .none
  · rw [dispText, if_neg hzero, String.toList_append]
    by_cases hnegative : disp < 0
    · have hvalue : Sign.minus.apply disp.toInt.natAbs = disp.toInt := by
        have hlt : disp.toInt < 0 := Int32.lt_iff_toInt_lt.mp hnegative
        simp only [Sign.apply]
        omega
      rw [if_pos hnegative]
      exact isSuffix_signed_iff.mpr ⟨_, hliteral, hvalue, by omega, by omega⟩
    · have hvalue : Sign.plus.apply disp.toInt.natAbs = disp.toInt := by
        have hle : ¬ disp.toInt < 0 := fun hlt => hnegative (Int32.lt_iff_toInt_lt.mpr hlt)
        simp only [Sign.apply]
        omega
      rw [if_neg hnegative]
      exact isSuffix_signed_iff.mpr ⟨_, hliteral, hvalue, by omega, by omega⟩

theorem dispText_eq_nil_iff {disp : Int32} : (dispText disp).toList = [] ↔ disp = 0 := by
  constructor
  · intro h
    have hsuffix := isSuffix_dispText disp
    rw [h] at hsuffix
    have hvalue : disp.toInt = 0 := hsuffix.unique .none
    exact Int32.toInt_inj.mp hvalue
  · rintro rfl
    rfl

section Readings

variable {text term suffix : List Char} {registers expr : AddressExpr} {value : Int}

theorem not_looksNumeric_empty : ¬ LooksNumeric "" := by
  rintro ⟨c, rest, htext, -⟩
  cases htext

theorem IsTerm.plus_mem_iff (h : IsTerm term registers) (hindex : LooksNumeric registers.index) :
    '+' ∈ term ↔ registers.base ≠ "" := by
  cases h with
  | base hbase => exact absurd hindex not_looksNumeric_empty
  | index hname hscale => simp [ofIndex, hname.2.1, hscale.not_operator.1]
  | baseIndex hbase _ => simp [ofBaseIndex, hbase.ofList_ne]
  | baseIndexScale hbase _ _ => simp [ofBaseIndex, hbase.ofList_ne]

/-- What was read is read again in the text of its address, unless the index is then taken for a
displacement. -/
theorem IsTerm.isReading_render (h : IsTerm term registers) (disp : Int32)
    (hindex : ¬ (registers.displaced disp).IndexReadsAsDisp) :
    IsReading (registers.displaced disp).render.toList term (dispText disp).toList registers
      disp.toInt where
  text_eq := by
    rw [AddressExpr.render, String.toList_append]
    exact congrArg (· ++ _) h.toList_registersText
  isTerm := h
  isSuffix := isSuffix_dispText disp
  index := by
    intro hnil hplus hnumeric
    exact hindex ⟨(h.plus_mem_iff hnumeric).mp hplus, dispText_eq_nil_iff.mp hnil, hnumeric⟩

/-- An index that is taken for a displacement is lost. -/
theorem IsTerm.eq_of_parse_render (h : IsTerm term registers) {disp : Int32} {other : AddressExpr}
    (hindex : (registers.displaced disp).IndexReadsAsDisp)
    (hother : parse (registers.displaced disp).render = .ok other) :
    other = (ofBase registers.base).displaced other.disp := by
  obtain ⟨hbase, hdisp, hnumeric⟩ := hindex
  have hterm : (registers.displaced disp).render.toList = term := by
    rw [AddressExpr.render, String.toList_append, dispText_eq_nil_iff.mpr hdisp, List.append_nil]
    exact h.toList_registersText
  rw [parse, hterm, parseChars_of_ne_nil h.ne_nil] at hother
  rcases h.sign_cases with hnone | ⟨base, rest, rfl, hrest, ⟨hname, hregisters⟩, hdigit⟩
  · exact absurd ((h.plus_mem_iff hnumeric).mpr hbase) hnone.1
  · change readSuffix (base ++ Sign.plus.toChar :: rest) >>= _ = _ at hother
    rw [readSuffix_of_digit .plus hrest (hdigit.mpr hnumeric)] at hother
    cases hread : readDisp .plus rest with
    | error error =>
      rw [hread] at hother
      cases hother
    | ok read =>
      rw [hread] at hother
      change readTerm _ base >>= _ = _ at hother
      rw [(IsTerm.base hname).readTerm_eq, ← hregisters] at hother
      cases hother
      rfl

theorem Denotes.exists_isTerm (h : Denotes text expr) :
    expr = {} ∨ ∃ term registers, IsTerm term registers ∧ registers.displaced expr.disp = expr := by
  cases h with
  | empty => exact .inl rfl
  | address hreading => exact .inr ⟨_, _, hreading.isTerm, rfl⟩

end Readings

/-- **Reading what was rendered.** The text of an address that was read reads back as that address
exactly when its index is not taken for a displacement; otherwise the index is lost. -/
theorem parse_render_of_parse {text : String} {expr : AddressExpr} (h : parse text = .ok expr) :
    (parse expr.render = .ok expr ↔ ¬ expr.IndexReadsAsDisp)
      ∧ ∀ other, expr.IndexReadsAsDisp → parse expr.render = .ok other →
        other = (ofBase expr.base).displaced other.disp := by
  rcases (parseChars_eq_ok_iff.mp h).exists_isTerm with rfl | ⟨term, registers, hterm, hexpr⟩
  · have hindex : ¬ IndexReadsAsDisp {} := fun hindex => hindex.1 rfl
    exact ⟨⟨fun _ => hindex, fun _ => rfl⟩, fun other hother => absurd hother hindex⟩
  · rw [← hexpr]
    refine ⟨⟨?_, ?_⟩, fun other => hterm.eq_of_parse_render⟩
    · intro hparse hindex
      have hlost := congrArg AddressExpr.index (hterm.eq_of_parse_render hindex hparse)
      have hnumeric := hindex.2.2
      rw [hlost] at hnumeric
      exact not_looksNumeric_empty hnumeric
    · intro hindex
      have hread := (hterm.isReading_render expr.disp hindex).parseChars_eq
      rw [Int32.ofInt_toInt] at hread
      exact hread

theorem parse_render_scaled :
    let expr := (ofBaseIndex "RAX" "RCX" 4).displaced (-506)
    parse "RAX+RCX*4-0x01fa" = .ok expr ∧ expr.render = "RAX+RCX*4-0x1fa"
      ∧ parse expr.render = .ok expr := by
  intro expr
  have hread : parse "RAX+RCX*4-0x01fa" = .ok expr := by decide +kernel
  have hindex : ¬ expr.IndexReadsAsDisp := fun hindex => absurd hindex.2.1 (by decide)
  exact ⟨hread, by decide +kernel, (parse_render_of_parse hread).1.mpr hindex⟩

/-- Read from `RAX+1+0`, the address with an index called `1` is written as `RAX+1`, which reads
back as the address one byte behind `RAX`. -/
theorem exists_parse_render_ne :
    ∃ text expr, parse text = .ok expr ∧ expr.render = "RAX+1"
      ∧ parse expr.render = .ok ((ofBase "RAX").displaced 1) ∧ parse expr.render ≠ .ok expr :=
  ⟨"RAX+1+0", ofBaseIndex "RAX" "1" 0, by decide +kernel⟩

end MachineCode.AddressExpr
