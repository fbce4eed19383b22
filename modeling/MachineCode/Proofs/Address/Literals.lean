import Mathlib.Data.List.Induction
import MachineCode.Address.Grammar
import MachineCode.Proofs.Text.Hex

/-!
# Literals

The reader gives a literal the value that the grammar gives it, and the digits that are written for
a number are a numeral of that number. Numerals grow at their end, as the reader's fold over the
digits does, so the inductions are over the text with its last digit taken off.
-/

namespace MachineCode

namespace AddressExpr

/-! ### Numerals -/

theorem digitsValue_append_singleton (radix : Nat) (text : List Char) (c : Char) :
    digitsValue radix (text ++ [c]) = radix * digitsValue radix text + Hex.digitValue c := by
  rw [digitsValue, List.foldl_append]
  rfl

section Numerals

variable {radix : Nat} {text : List Char} {value : Nat}

theorem IsNumeral.ne_nil (h : IsNumeral radix text value) : text ≠ [] := by
  cases h <;> simp

theorem IsNumeral.exists_digitChar (h : IsNumeral radix text value) :
    ∀ c ∈ text, ∃ digit < radix, c = digit.digitChar := by
  induction h with
  | @digit digit hdigit =>
    intro c hc
    exact ⟨digit, hdigit, List.mem_singleton.mp hc⟩
  | @snoc text value digit _ hdigit ih =>
    intro c hc
    rcases List.mem_append.mp hc with hmem | hlast
    · exact ih c hmem
    · exact ⟨digit, hdigit, List.mem_singleton.mp hlast⟩

theorem IsNumeral.digitsValue_eq (hradix : radix ≤ 16) (h : IsNumeral radix text value) :
    digitsValue radix text = value := by
  induction h with
  | digit hdigit =>
    change radix * 0 + Hex.digitValue _ = _
    rw [Hex.digitValue_digitChar (by omega), Nat.mul_zero, Nat.zero_add]
  | snoc _ hdigit ih =>
    rw [digitsValue_append_singleton, ih, Hex.digitValue_digitChar (by omega)]

theorem isNumeral_digitsValue (hradix : radix ≤ 16) (hne : text ≠ [])
    (hdigits : ∀ c ∈ text, ∃ digit < radix, c = digit.digitChar) :
    IsNumeral radix text (digitsValue radix text) := by
  induction text using List.reverseRecOn with
  | nil => exact absurd rfl hne
  | append_singleton text c ih =>
    obtain ⟨digit, hdigit, rfl⟩ := hdigits c (by simp)
    rw [digitsValue_append_singleton, Hex.digitValue_digitChar (by omega)]
    by_cases hnil : text = []
    · subst hnil
      have hvalue : radix * digitsValue radix [] + digit = digit := by simp [digitsValue]
      rw [hvalue]
      exact .digit hdigit
    · exact .snoc (ih hnil fun c hc => hdigits c (List.mem_append_left _ hc)) hdigit

/-- The text has a value as a numeral if it consists of one or more digits, and then one only. -/
theorem isNumeral_iff (hradix : radix ≤ 16) :
    IsNumeral radix text value ↔
      (text ≠ [] ∧ ∀ c ∈ text, ∃ digit < radix, c = digit.digitChar)
        ∧ digitsValue radix text = value := by
  constructor
  · intro h
    exact ⟨⟨h.ne_nil, h.exists_digitChar⟩, h.digitsValue_eq hradix⟩
  · rintro ⟨⟨hne, hdigits⟩, rfl⟩
    exact isNumeral_digitsValue hradix hne hdigits

end Numerals

theorem isNumeral_ten_iff {text : List Char} {value : Nat} :
    IsNumeral 10 text value ↔
      (text ≠ [] ∧ ∀ c ∈ text, c.isDigit) ∧ digitsValue 10 text = value := by
  have hdigit (c : Char) : (∃ digit < 10, c = digit.digitChar) ↔ c.isDigit := by
    constructor
    · rintro ⟨digit, hdigit, rfl⟩
      rw [Nat.isDigit_digitChar]
      exact decide_eq_true hdigit
    · exact Hex.exists_digitChar_of_isDigit_ten
  simp only [isNumeral_iff (show 10 ≤ 16 by decide), hdigit]

theorem isNumeral_sixteen_iff {text : List Char} {value : Nat} :
    IsNumeral 16 text value ↔
      (text ≠ [] ∧ ∀ c ∈ text, Hex.isDigit c) ∧ digitsValue 16 text = value := by
  have hdigit (c : Char) : (∃ digit < 16, c = digit.digitChar) ↔ Hex.isDigit c := by
    constructor
    · rintro ⟨digit, hdigit, rfl⟩
      exact Hex.isDigit_digitChar hdigit
    · exact Hex.exists_digitChar_of_isDigit
  simp only [isNumeral_iff (Nat.le_refl 16), hdigit]

/-- The hexadecimal digits of a number are a numeral of it. -/
theorem isNumeral_digits (value : Nat) : IsNumeral 16 (Hex.digits value) value := by
  induction value using Nat.strongRecOn with
  | ind value ih =>
    by_cases hsmall : value < 16
    · rw [Hex.digits, Nat.toDigits_of_lt_base hsmall]
      exact .digit hsmall
    · have hdiv : value = 16 * (value / 16) + value % 16 := (Nat.div_add_mod value 16).symm
      have hhigh : IsNumeral 16 (Hex.digits (value / 16)) (value / 16) := ih _ (by omega)
      have hlow : value % 16 < 16 := Nat.mod_lt value (by decide)
      have hsnoc := IsNumeral.snoc hhigh hlow
      rwa [← hdiv, Hex.digits, ← Nat.toDigits_of_base_le (by decide) (by omega)] at hsnoc

/-! ### Literals -/

theorem literal?_eq_some_iff {text : List Char} {value : Nat} :
    literal? text = some value ↔ IsLiteral text value := by
  have hdigits (radix : Nat) (test : Char → Bool) (digits : List Char) :
      (if !digits.isEmpty && digits.all test then some (digitsValue radix digits) else none)
          = some value ↔
        (digits ≠ [] ∧ ∀ c ∈ digits, test c) ∧ digitsValue radix digits = value := by
    simp
  rw [literal?.eq_def]
  split
  · rename_i digits
    rw [hdigits, ← isNumeral_sixteen_iff]
    constructor
    · exact .hex
    · intro h
      cases h with
      | hex hdigits => exact hdigits
      | decimal hdecimal =>
        -- A decimal numeral has no x in it.
        have hx := (isNumeral_ten_iff.mp hdecimal).1.2 'x' (by simp)
        exact absurd hx (by decide)
  · rename_i hmarker
    rw [hdigits, ← isNumeral_ten_iff]
    constructor
    · exact .decimal
    · intro h
      cases h with
      | decimal hdecimal => exact hdecimal
      | hex _ => exact absurd rfl (hmarker _)

section Literals

variable {text : List Char} {value : Nat}

theorem IsLiteral.unique {other : Nat} (h : IsLiteral text value) (hother : IsLiteral text other) :
    value = other := by
  rw [← literal?_eq_some_iff] at h hother
  exact Option.some.inj (h.symm.trans hother)

theorem IsLiteral.exists_digit (h : IsLiteral text value) :
    ∃ c rest, text = c :: rest ∧ c.isDigit := by
  cases h with
  | decimal hdecimal =>
    obtain ⟨⟨hne, hdigits⟩, -⟩ := isNumeral_ten_iff.mp hdecimal
    obtain ⟨c, rest, rfl⟩ := List.exists_cons_of_ne_nil hne
    exact ⟨c, rest, rfl, hdigits c List.mem_cons_self⟩
  | hex _ => exact ⟨'0', _, rfl, by decide⟩

theorem IsLiteral.not_mem (h : IsLiteral text value) {c : Char} (hdigit : ¬ Hex.isDigit c)
    (hmarker : c ≠ 'x') : c ∉ text := by
  intro hmem
  cases h with
  | decimal hdecimal =>
    have hc : c.isDigit := (isNumeral_ten_iff.mp hdecimal).1.2 c hmem
    exact hdigit (by rw [Hex.isDigit, hc, Bool.true_or])
  | hex hhex =>
    simp only [List.mem_cons] at hmem
    rcases hmem with rfl | rfl | hmem
    · exact hdigit (by decide)
    · exact hmarker rfl
    · exact hdigit ((isNumeral_sixteen_iff.mp hhex).1.2 c hmem)

end Literals

end AddressExpr

end MachineCode
