import MachineCode.Proofs.Address.Literals
import MachineCode.Proofs.Address.Terms

/-!
# The language of address expressions

The reader accepts the texts of the grammar and gives each the address that the grammar gives it. The
right-most sign decides between a displacement and an index, and a text in the grammar has its
displacement there: literals hold no sign, and without a suffix the only sign stands before an index
that is not numeric.
-/

namespace MachineCode.AddressExpr

/-! ### Displacements -/

def StartsWithDigit (text : List Char) : Prop := ∃ c rest, text = c :: rest ∧ c.isDigit

theorem looksNumeric_iff {index : String} : LooksNumeric index ↔ StartsWithDigit index.toList := by
  have hdigit (c : Char) : ('0' ≤ c ∧ c ≤ '9') ↔ c.isDigit := by
    simp only [Char.isDigit, Bool.and_eq_true, decide_eq_true_eq, ge_iff_le]
    exact Iff.rfl
  simp only [LooksNumeric, StartsWithDigit, hdigit]

theorem startsWithDigit_iff {text : List Char} :
    StartsWithDigit text ↔ (text.head?.map Char.isDigit).getD false := by
  cases text <;> simp [StartsWithDigit]

theorem startsWithDigit_append {text : List Char} (h : text ≠ []) (rest : List Char) :
    StartsWithDigit (text ++ rest) ↔ StartsWithDigit text := by
  obtain ⟨c, tail, rfl⟩ := List.exists_cons_of_ne_nil h
  simp [StartsWithDigit]

section Suffixes

variable {text suffix : List Char} {sign : Sign} {value : Int}

theorem IsLiteral.hasNoSign {magnitude : Nat} (h : IsLiteral text magnitude) : HasNoSign text :=
  ⟨h.not_mem (by decide) (by decide), h.not_mem (by decide) (by decide)⟩

theorem isSuffix_signed_iff :
    IsSuffix (sign.toChar :: text) value ↔
      ∃ magnitude, IsLiteral text magnitude ∧ sign.apply magnitude = value
        ∧ -0x80000000 ≤ value ∧ value < 0x80000000 := by
  constructor
  · intro h
    generalize hwritten : sign.toChar :: text = written at h
    cases h with
    | none => cases hwritten
    | @signed sign' text' magnitude hliteral hlow hhigh =>
      obtain ⟨hsign, rfl⟩ := List.cons.inj hwritten
      rw [Sign.toChar_injective hsign]
      exact ⟨magnitude, hliteral, rfl, hlow, hhigh⟩
  · rintro ⟨magnitude, hliteral, rfl, hlow, hhigh⟩
    exact .signed sign hliteral hlow hhigh

theorem IsSuffix.unique {other : Int} (h : IsSuffix suffix value) (hother : IsSuffix suffix other) :
    value = other := by
  cases h with
  | none => cases hother; rfl
  | signed sign hliteral =>
    obtain ⟨magnitude, hmagnitude, rfl, -⟩ := isSuffix_signed_iff.mp hother
    rw [hliteral.unique hmagnitude]

theorem readDisp_eq_ok_iff {disp : Int32} :
    readDisp sign text = .ok disp ↔
      ∃ value, IsSuffix (sign.toChar :: text) value ∧ Int32.ofInt value = disp := by
  simp only [isSuffix_signed_iff, ← literal?_eq_some_iff]
  rw [readDisp]
  cases literal? text with
  | none => simp
  | some magnitude =>
    by_cases hrange : -0x80000000 ≤ sign.apply magnitude ∧ sign.apply magnitude < 0x80000000
    · simp [hrange]
    · simp only [if_neg hrange]
      constructor
      · intro h
        cases h
      · rintro ⟨value, ⟨_, hmagnitude, rfl, hbounds⟩, -⟩
        cases hmagnitude
        exact absurd hbounds hrange

end Suffixes

/-! ### Where the displacement starts -/

section Suffix

variable {text before after term suffix : List Char} {registers : AddressExpr} {disp : Int32}

theorem readSuffix_of_hasNoSign (h : HasNoSign text) : readSuffix text = .ok (text, 0) := by
  rw [readSuffix, splitLastSign_eq_none_iff.mpr h]

theorem readSuffix_of_digit (sign : Sign) (hafter : HasNoSign after)
    (hdigit : StartsWithDigit after) :
    readSuffix (before ++ sign.toChar :: after)
      = (readDisp sign after).map fun disp => (before, disp) := by
  rw [readSuffix, splitLastSign_append hafter]
  simp only [startsWithDigit_iff.mp hdigit, if_true]

theorem readSuffix_of_index (hafter : HasNoSign after) (hdigit : ¬ StartsWithDigit after) :
    readSuffix (before ++ '+' :: after) = .ok (before ++ '+' :: after, 0) := by
  have hsplit := splitLastSign_append hafter before .plus
  rw [startsWithDigit_iff] at hdigit
  change splitLastSign (before ++ '+' :: after) = _ at hsplit
  rw [readSuffix, hsplit]
  simp only [if_neg hdigit]

theorem readSuffix_append {value : Int} (hsuffix : IsSuffix suffix value) (hne : suffix ≠ [])
    (term : List Char) : readSuffix (term ++ suffix) = .ok (term, Int32.ofInt value) := by
  cases hsuffix with
  | none => exact absurd rfl hne
  | signed sign hliteral hlow hhigh =>
    have hdisp := readDisp_eq_ok_iff.mpr ⟨_, .signed sign hliteral hlow hhigh, rfl⟩
    rw [readSuffix_of_digit sign hliteral.hasNoSign hliteral.exists_digit, hdisp]
    rfl

theorem eq_of_readSuffix (h : readSuffix text = .ok (term, disp)) :
    (∃ suffix value, suffix ≠ [] ∧ IsSuffix suffix value ∧ text = term ++ suffix
        ∧ Int32.ofInt value = disp)
      ∨ text = term ∧ disp = 0 := by
  rw [readSuffix] at h
  split at h
  · cases h
    exact .inr ⟨rfl, rfl⟩
  · rename_i before sign after hsplit
    obtain ⟨rfl, -⟩ := splitLastSign_eq_some_iff.mp hsplit
    split at h
    · cases hread : readDisp sign after with
      | error error =>
        rw [hread] at h
        cases h
      | ok read =>
        rw [hread] at h
        cases h
        obtain ⟨value, hvalue, hdisp⟩ := readDisp_eq_ok_iff.mp hread
        exact .inl ⟨_, value, List.cons_ne_nil _ _, hvalue, rfl, hdisp⟩
    · split at h <;> cases h
      exact .inr ⟨rfl, rfl⟩

/-- A register part has no sign, or one plus between the base and the index. -/
theorem IsTerm.sign_cases (h : IsTerm term registers) :
    HasNoSign term
      ∨ ∃ base rest, term = base ++ '+' :: rest ∧ HasNoSign rest
        ∧ (IsName base ∧ registers.base = String.ofList base)
        ∧ (StartsWithDigit rest ↔ LooksNumeric registers.index) := by
  cases h with
  | base hbase => exact .inl ⟨hbase.2.1, hbase.2.2.1⟩
  | index hindex hscale =>
    left
    simp [HasNoSign, hindex.2.1, hindex.2.2.1, hscale.not_operator.1, hscale.not_operator.2.1]
  | @baseIndex base index hbase hindex =>
    refine .inr ⟨base, index, rfl, ⟨hindex.2.1, hindex.2.2.1⟩, ⟨hbase, rfl⟩, ?_⟩
    rw [looksNumeric_iff, ofBaseIndex, String.toList_ofList]
  | @baseIndexScale base index text _ hbase hindex hscale =>
    refine .inr ⟨base, index ++ '*' :: text, by simp, ?_, ⟨hbase, rfl⟩, ?_⟩
    · simp [HasNoSign, hindex.2.1, hindex.2.2.1, hscale.not_operator.1, hscale.not_operator.2.1]
    · rw [startsWithDigit_append hindex.1, looksNumeric_iff, ofBaseIndex, String.toList_ofList]

/-- A register part is read as one if no index behind a plus looks like a displacement. -/
theorem IsTerm.readSuffix_eq_iff (h : IsTerm term registers) :
    readSuffix term = .ok (term, 0) ↔ ('+' ∈ term → ¬ LooksNumeric registers.index) := by
  rcases h.sign_cases with hnone | ⟨base, rest, rfl, hrest, -, hindex⟩
  · simp [readSuffix_of_hasNoSign hnone, hnone.1]
  · rw [← hindex]
    constructor
    · intro hread _ hdigit
      change readSuffix (base ++ Sign.plus.toChar :: rest) = _ at hread
      rw [readSuffix_of_digit .plus hrest hdigit] at hread
      cases hdisp : readDisp .plus rest <;> rw [hdisp] at hread <;> simp [Except.map] at hread
    · intro hdigit
      exact readSuffix_of_index hrest (hdigit (by simp))

end Suffix

/-! ### Readings -/

section Readings

variable {text term suffix : List Char} {registers expr : AddressExpr} {value : Int}

theorem IsReading.readSuffix_eq (h : IsReading text term suffix registers value) :
    readSuffix text = .ok (term, Int32.ofInt value) := by
  rw [h.text_eq]
  by_cases hne : suffix = []
  · have hsuffix := h.isSuffix
    rw [hne] at hsuffix ⊢
    cases hsuffix
    rw [List.append_nil]
    exact h.isTerm.readSuffix_eq_iff.mpr (h.index hne)
  · exact readSuffix_append h.isSuffix hne term

theorem exists_isReading {disp : Int32} (hsuffix : readSuffix text = .ok (term, disp))
    (hterm : IsTerm term registers) :
    ∃ suffix value, IsReading text term suffix registers value ∧ Int32.ofInt value = disp := by
  rcases eq_of_readSuffix hsuffix with ⟨suffix, value, hne, hvalue, htext, hdisp⟩ | ⟨rfl, rfl⟩
  · exact ⟨suffix, value, ⟨htext, hterm, hvalue, fun hnil => absurd hnil hne⟩, hdisp⟩
  · have hindex := hterm.readSuffix_eq_iff.mp hsuffix
    exact ⟨[], 0, ⟨(List.append_nil text).symm, hterm, .none, fun _ => hindex⟩, rfl⟩

theorem IsReading.ne_nil (h : IsReading text term suffix registers value) : text ≠ [] := by
  rw [h.text_eq]
  exact List.append_ne_nil_of_left_ne_nil h.isTerm.ne_nil suffix

theorem IsReading.unique {term' suffix' : List Char} {registers' : AddressExpr} {value' : Int}
    (h : IsReading text term suffix registers value)
    (h' : IsReading text term' suffix' registers' value') :
    term = term' ∧ suffix = suffix' ∧ registers = registers' ∧ value = value' := by
  have hread := h.readSuffix_eq.symm.trans h'.readSuffix_eq
  obtain rfl : term = term' := congrArg Prod.fst (Except.ok.inj hread)
  obtain rfl : suffix = suffix' := List.append_cancel_left (h.text_eq.symm.trans h'.text_eq)
  exact ⟨rfl, rfl, h.isTerm.unique h'.isTerm, h.isSuffix.unique h'.isSuffix⟩

theorem parseChars_of_ne_nil (hne : text ≠ []) :
    parseChars text
      = readSuffix text >>= fun (term, disp) =>
          readTerm text term >>= fun registers => .ok (registers.displaced disp) := by
  have hempty : text.isEmpty = false := by simpa using hne
  rw [parseChars, hempty]
  rfl

theorem IsReading.parseChars_eq (h : IsReading text term suffix registers value) :
    parseChars text = .ok (registers.displaced (Int32.ofInt value)) := by
  rw [parseChars_of_ne_nil h.ne_nil, h.readSuffix_eq]
  change readTerm text term >>= _ = _
  rw [h.isTerm.readTerm_eq]
  rfl

theorem denotes_of_parseChars (h : parseChars text = .ok expr) : Denotes text expr := by
  by_cases hne : text = []
  · subst hne
    cases h
    exact .empty
  · rw [parseChars_of_ne_nil hne] at h
    obtain ⟨⟨term, disp⟩, hsuffix, h⟩ := bind_eq_ok.mp h
    obtain ⟨registers, hterm, hexpr⟩ := bind_eq_ok.mp h
    cases hexpr
    obtain ⟨suffix, value, hreading, rfl⟩ := exists_isReading hsuffix (readTerm_eq_ok_iff.mp hterm)
    exact .address hreading

theorem parseChars_eq_ok_iff : parseChars text = .ok expr ↔ Denotes text expr := by
  constructor
  · exact denotes_of_parseChars
  · intro h
    cases h with
    | empty => rfl
    | address hreading => exact hreading.parseChars_eq

end Readings

/-- **The language of the reader.** The texts that are read are those of the grammar, each with the
address that it denotes, and no text has two readings. -/
theorem parse_eq_ok_iff_denotes (text : String) :
    (∀ expr, parse text = .ok expr ↔ Denotes text.toList expr)
      ∧ ∀ {term suffix term' suffix' : List Char} {registers registers' : AddressExpr}
        {value value' : Int}, IsReading text.toList term suffix registers value →
        IsReading text.toList term' suffix' registers' value' →
        text ≠ "" ∧ term = term' ∧ suffix = suffix' ∧ registers = registers' ∧ value = value' := by
  refine ⟨fun expr => parseChars_eq_ok_iff, fun h h' => ⟨?_, h.unique h'⟩⟩
  rintro rfl
  exact h.ne_nil rfl

end MachineCode.AddressExpr
