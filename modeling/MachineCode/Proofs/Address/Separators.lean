import MachineCode.Address.Grammar

/-!
# Separators

What the two searches of the reader find: the first occurrence of a character, and the right-most
sign. Each is characterised by the text around it.
-/

namespace MachineCode

theorem Sign.ofChar?_eq_some_iff {c : Char} {sign : Sign} :
    ofChar? c = some sign ↔ c = sign.toChar := by
  constructor
  · intro h
    rw [ofChar?.eq_def] at h
    split at h <;> cases h <;> rfl
  · rintro rfl
    cases sign <;> rfl

theorem Sign.ofChar?_eq_none_iff {c : Char} : ofChar? c = none ↔ c ≠ '+' ∧ c ≠ '-' := by
  rw [Option.eq_none_iff_forall_ne_some]
  constructor
  · intro h
    exact ⟨fun hc => h .plus (ofChar?_eq_some_iff.mpr hc),
      fun hc => h .minus (ofChar?_eq_some_iff.mpr hc)⟩
  · rintro ⟨hplus, hminus⟩ sign hsign
    cases sign with
    | plus => exact hplus (ofChar?_eq_some_iff.mp hsign)
    | minus => exact hminus (ofChar?_eq_some_iff.mp hsign)

theorem Sign.toChar_injective : Function.Injective toChar := by
  intro first second h
  have hfirst : ofChar? first.toChar = some first := ofChar?_eq_some_iff.mpr rfl
  have hsecond : ofChar? first.toChar = some second := ofChar?_eq_some_iff.mpr h
  exact Option.some.inj (hfirst.symm.trans hsecond)

namespace AddressExpr

/-! ### The first occurrence of a character -/

section First

variable {sep : Char} {text before after : List Char}

theorem splitFirst_append (h : sep ∉ before) (after : List Char) :
    splitFirst sep (before ++ sep :: after) = some (before, after) := by
  induction before with
  | nil => simp [splitFirst]
  | cons c before ih =>
    rw [List.mem_cons, not_or] at h
    rw [List.cons_append, splitFirst, if_neg (Ne.symm h.1), ih h.2]
    rfl

theorem splitFirst_eq_some_iff :
    splitFirst sep text = some (before, after) ↔ text = before ++ sep :: after ∧ sep ∉ before := by
  constructor
  · intro h
    induction text generalizing before with
    | nil => cases h
    | cons c rest ih =>
      rw [splitFirst] at h
      by_cases hc : c = sep
      · rw [if_pos hc] at h
        cases h
        simp [hc]
      · rw [if_neg hc, Option.map_eq_some_iff] at h
        obtain ⟨⟨found, after⟩, hrest, hfound⟩ := h
        cases hfound
        obtain ⟨rfl, hnot⟩ := ih hrest
        exact ⟨rfl, by simp [Ne.symm hc, hnot]⟩
  · rintro ⟨rfl, hnot⟩
    exact splitFirst_append hnot after

theorem splitFirst_eq_none_iff : splitFirst sep text = none ↔ sep ∉ text := by
  constructor
  · intro h hmem
    obtain ⟨before, after, rfl, hnot⟩ := List.eq_append_cons_of_mem hmem
    simp [splitFirst_append hnot] at h
  · intro hnot
    cases h : splitFirst sep text with
    | none => rfl
    | some found =>
      obtain ⟨rfl, -⟩ := splitFirst_eq_some_iff.mp h
      simp at hnot

end First

/-! ### The right-most sign -/

section Last

def HasNoSign (text : List Char) : Prop := '+' ∉ text ∧ '-' ∉ text

variable {text before after : List Char} {sign : Sign}

theorem hasNoSign_cons {c : Char} : HasNoSign (c :: text) ↔ (c ≠ '+' ∧ c ≠ '-') ∧ HasNoSign text := by
  simp only [HasNoSign, List.mem_cons, not_or, ne_comm (a := c)]
  exact and_and_and_comm

theorem splitLastSign_eq_none_iff : splitLastSign text = none ↔ HasNoSign text := by
  induction text with
  | nil => simp [splitLastSign, HasNoSign]
  | cons c rest ih =>
    rw [splitLastSign, hasNoSign_cons, ← ih]
    cases hrest : splitLastSign rest with
    | none => simp [Sign.ofChar?_eq_none_iff]
    | some found => simp

theorem splitLastSign_append (h : HasNoSign after) (before : List Char) (sign : Sign) :
    splitLastSign (before ++ sign.toChar :: after) = some (before, sign, after) := by
  induction before with
  | nil =>
    have hsign : Sign.ofChar? sign.toChar = some sign := Sign.ofChar?_eq_some_iff.mpr rfl
    rw [List.nil_append, splitLastSign, splitLastSign_eq_none_iff.mpr h]
    simp [hsign]
  | cons c before ih => rw [List.cons_append, splitLastSign, ih]

theorem splitLastSign_eq_some_iff :
    splitLastSign text = some (before, sign, after) ↔
      text = before ++ sign.toChar :: after ∧ HasNoSign after := by
  constructor
  · intro h
    induction text generalizing before with
    | nil => cases h
    | cons c rest ih =>
      rw [splitLastSign] at h
      cases hrest : splitLastSign rest with
      | none =>
        rw [hrest] at h
        obtain ⟨found, hsign, hfound⟩ := Option.map_eq_some_iff.mp h
        cases hfound
        exact ⟨by rw [Sign.ofChar?_eq_some_iff.mp hsign]; rfl, splitLastSign_eq_none_iff.mp hrest⟩
      | some found =>
        rw [hrest] at h
        cases h
        obtain ⟨rfl, hnone⟩ := ih hrest
        exact ⟨rfl, hnone⟩
  · rintro ⟨rfl, hnone⟩
    exact splitLastSign_append hnone before sign

end Last

end AddressExpr

end MachineCode
