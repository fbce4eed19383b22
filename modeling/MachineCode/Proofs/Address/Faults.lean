import MachineCode.Address.Faults
import MachineCode.Proofs.Address.Language

/-!
# The errors of the reader

The reader refuses a text exactly for a fault that the text has, and each text has one fault that
counts. The displacement is looked at first, then the names of the register part in their order, and
its scale last.
-/

namespace MachineCode.AddressExpr

/-! ### The displacement -/

section Displacement

variable {text before after term : List Char} {sign : Sign} {error : AddressError}

theorem lastSign_iff :
    LastSign text before sign after ↔ splitLastSign text = some (before, sign, after) := by
  rw [splitLastSign_eq_some_iff]
  constructor
  · intro h
    exact ⟨h.text_eq, h.plus, h.minus⟩
  · rintro ⟨htext, hplus, hminus⟩
    exact ⟨htext, hplus, hminus⟩

theorem startsDisp_iff : StartsDisp sign after ↔ sign = .minus ∨ StartsWithDigit after := by
  rw [StartsDisp, looksNumeric_iff, String.toList_ofList]

theorem IsLiteral.startsDisp {magnitude : Nat} (h : IsLiteral after magnitude) (sign : Sign) :
    StartsDisp sign after :=
  startsDisp_iff.mpr (.inr h.exists_digit)

theorem readDisp_eq_error_iff :
    readDisp sign text = .error error ↔
      ((∀ magnitude, ¬ IsLiteral text magnitude) ∧ error = .displacement (String.ofList text))
        ∨ ∃ magnitude, IsLiteral text magnitude
          ∧ (sign.apply magnitude < -0x80000000 ∨ 0x80000000 ≤ sign.apply magnitude)
          ∧ error = .displacementRange (String.ofList text) := by
  simp only [← literal?_eq_some_iff]
  rw [readDisp]
  cases literal? text with
  | none => simp [eq_comm]
  | some magnitude =>
    by_cases hrange : -0x80000000 ≤ sign.apply magnitude ∧ sign.apply magnitude < 0x80000000
    · have hfits : ¬ (sign.apply magnitude < -0x80000000 ∨ 0x80000000 ≤ sign.apply magnitude) := by
        omega
      simp [hrange, hfits]
    · have hexceeds : sign.apply magnitude < -0x80000000 ∨ 0x80000000 ≤ sign.apply magnitude := by
        omega
      simp [hrange, hexceeds, eq_comm]

/-- A fault of the displacement is an error of reading what follows the right-most sign. -/
theorem LastSign.dispFault_iff (h : LastSign text before sign after) :
    DispFault text error ↔ StartsDisp sign after ∧ readDisp sign after = .error error := by
  rw [readDisp_eq_error_iff]
  have hunique {before' after' : List Char} {sign' : Sign}
      (h' : LastSign text before' sign' after') : sign' = sign ∧ after' = after := by
    have hsplit := (lastSign_iff.mp h').symm.trans (lastSign_iff.mp h)
    simp only [Option.some.injEq, Prod.mk.injEq] at hsplit
    exact hsplit.2
  constructor
  · intro hfault
    cases hfault with
    | literal hsign hstarts hliteral =>
      obtain ⟨rfl, rfl⟩ := hunique hsign
      exact ⟨hstarts, .inl ⟨hliteral, rfl⟩⟩
    | range hsign hliteral hrange =>
      obtain ⟨rfl, rfl⟩ := hunique hsign
      exact ⟨hliteral.startsDisp _, .inr ⟨_, hliteral, hrange, rfl⟩⟩
  · rintro ⟨hstarts, ⟨hliteral, rfl⟩ | ⟨magnitude, hliteral, hrange, rfl⟩⟩
    · exact .literal h hstarts hliteral
    · exact .range h hliteral hrange

theorem LastSign.readSuffix_eq (h : LastSign text before sign after)
    (hstarts : StartsDisp sign after) :
    readSuffix text = (readDisp sign after).map fun disp => (before, disp) := by
  by_cases hdigit : StartsWithDigit after
  · rw [h.text_eq]
    exact readSuffix_of_digit sign ⟨h.plus, h.minus⟩ hdigit
  · -- A minus in front of no digit is refused without a look at the literal, which is none.
    obtain rfl := (startsDisp_iff.mp hstarts).resolve_right hdigit
    have hdisp : readDisp .minus after = .error (.displacement (String.ofList after)) :=
      readDisp_eq_error_iff.mpr (.inl ⟨fun _ hliteral => hdigit hliteral.exists_digit, rfl⟩)
    rw [startsWithDigit_iff] at hdigit
    rw [readSuffix, lastSign_iff.mp h, hdisp]
    simp only [if_neg hdigit]
    rfl

theorem LastSign.readSuffix_eq_ok (h : LastSign text before sign after)
    (hstarts : ¬ StartsDisp sign after) : readSuffix text = .ok (text, 0) := by
  rw [startsDisp_iff, not_or] at hstarts
  obtain ⟨hsign, hdigit⟩ := hstarts
  cases sign with
  | minus => exact absurd rfl hsign
  | plus =>
    rw [h.text_eq]
    exact readSuffix_of_index ⟨h.plus, h.minus⟩ hdigit

theorem lastSign_cases (text : List Char) :
    HasNoSign text ∨ ∃ before sign after, LastSign text before sign after := by
  cases hsplit : splitLastSign text with
  | none => exact .inl (splitLastSign_eq_none_iff.mp hsplit)
  | some found => exact .inr ⟨_, _, _, lastSign_iff.mpr hsplit⟩

theorem HasNoSign.not_lastSign (h : HasNoSign text) : ¬ LastSign text before sign after := by
  intro hsign
  have hsplit := lastSign_iff.mp hsign
  rw [splitLastSign_eq_none_iff.mpr h] at hsplit
  cases hsplit

theorem readSuffix_eq_error_iff : readSuffix text = .error error ↔ DispFault text error := by
  rcases lastSign_cases text with hnone | ⟨before, sign, after, hsign⟩
  · rw [readSuffix_of_hasNoSign hnone]
    constructor
    · intro h
      cases h
    · intro hfault
      cases hfault with
      | literal hsign | range hsign => exact absurd hsign hnone.not_lastSign
  · rw [hsign.dispFault_iff]
    by_cases hstarts : StartsDisp sign after
    · rw [hsign.readSuffix_eq hstarts]
      cases readDisp sign after <;> simp [Except.map, hstarts]
    · rw [hsign.readSuffix_eq_ok hstarts]
      simp [hstarts]

/-- Reading the suffix leaves the register part. -/
theorem registerPart_iff : RegisterPart text term ↔ ∃ disp, readSuffix text = .ok (term, disp) := by
  constructor
  · intro h
    cases h with
    | displaced htext hsuffix hne =>
      rw [htext]
      exact ⟨_, readSuffix_append hsuffix hne term⟩
    | whole hwhole =>
      rcases lastSign_cases text with hnone | ⟨before, sign, after, hsign⟩
      · exact ⟨0, readSuffix_of_hasNoSign hnone⟩
      · exact ⟨0, hsign.readSuffix_eq_ok (hwhole before sign after hsign)⟩
  · rintro ⟨disp, hread⟩
    rcases eq_of_readSuffix hread with ⟨suffix, value, hne, hsuffix, htext, -⟩ | ⟨rfl, -⟩
    · exact .displaced htext hsuffix hne
    · refine .whole fun before sign after hsign hstarts => ?_
      rw [hsign.readSuffix_eq hstarts] at hread
      cases hdisp : readDisp sign after with
      | error error =>
        rw [hdisp] at hread
        cases hread
      | ok value =>
        rw [hdisp] at hread
        have hbefore : before = text := congrArg Prod.fst (Except.ok.inj hread)
        have hlength := congrArg List.length hsign.text_eq
        simp [hbefore] at hlength

end Displacement

/-! ### The register part -/

section Term

variable {expr term name text : List Char} {names : List (List Char)} {scale : Option (List Char)}
  {error : AddressError}

theorem readName_eq_error_iff :
    readName expr name = .error error ↔
      (name = [] ∧ error = .missingRegister (String.ofList expr))
        ∨ (('+' ∈ name ∨ '-' ∈ name ∨ '*' ∈ name) ∧ error = .malformed (String.ofList expr)) := by
  have hoperator : ('+' ∈ name ∨ '-' ∈ name ∨ '*' ∈ name) ↔ name.any isOperator = true := by
    rw [← Bool.not_eq_false, any_isOperator_eq_false_iff]
    tauto
  rw [hoperator, readName]
  cases name with
  | nil => simp [eq_comm]
  | cons c rest => cases (c :: rest).any isOperator <;> simp [eq_comm]

theorem readScale_eq_error_iff :
    readScale text = .error error ↔
      (∀ value, ¬ IsScale text value) ∧ error = .scale (String.ofList text) := by
  simp only [← readScale_eq_ok_iff]
  rw [readScale.eq_def]
  split <;> simp [eq_comm]

theorem forall_isName_iff (expr : List Char) :
    (∀ name ∈ names, ∃ read, readName expr name = .ok read) ↔ ∀ name ∈ names, IsName name := by
  simp only [readName_eq_ok_iff, exists_and_left, exists_eq', and_true]

theorem exists_mapM_readName_iff :
    (∃ read, names.mapM (readName expr) = .ok read) ↔ ∀ name ∈ names, IsName name := by
  rw [← forall_isName_iff expr]
  constructor
  · rintro ⟨read, hread⟩ name hname
    obtain ⟨found, -, hfound⟩ := (exists_mem_of_mapM_eq_ok hread).1 name hname
    exact ⟨found, hfound⟩
  · intro h
    cases hread : names.mapM (readName expr) with
    | ok read => exact ⟨read, rfl⟩
    | error error =>
      obtain ⟨name, hname, herror⟩ := exists_of_mapM_eq_error hread
      obtain ⟨read, hfound⟩ := h name hname
      cases herror.symm.trans hfound

/-- The names are read in their order, and then the scale. -/
theorem Fields.readTerm_eq_error_iff (h : Fields term names scale) :
    readTerm expr term = .error error ↔
      names.mapM (readName expr) = .error error
        ∨ (∃ read, names.mapM (readName expr) = .ok read)
          ∧ ∃ text ∈ scale, readScale text = .error error := by
  rw [readTerm.eq_def]
  cases h with
  | base hplus hstar =>
    rw [splitFirst_eq_none_iff.mpr hplus, splitFirst_eq_none_iff.mpr hstar]
    cases hbase : readName expr term <;>
      simp [List.mapM_cons, hbase, bind, Except.bind, pure, Except.pure]
  | @index index text hplus hstar =>
    have hnoPlus : '+' ∉ index ++ '*' :: text := by simp [hplus.1, hplus.2]
    rw [splitFirst_eq_none_iff.mpr hnoPlus, splitFirst_append hstar]
    cases hindex : readName expr index <;> cases hscale : readScale text <;>
      simp [List.mapM_cons, hindex, hscale, bind, Except.bind, pure, Except.pure]
  | @baseIndex base index hplus hstar =>
    have hordered : base.contains '*' = false := by simpa using hstar.1
    rw [splitFirst_append hplus]
    simp only [hordered, splitFirst_eq_none_iff.mpr hstar.2]
    cases hbase : readName expr base <;> cases hindex : readName expr index <;>
      simp [List.mapM_cons, hbase, hindex, bind, Except.bind, pure, Except.pure]
  | @baseIndexScale base index text hplus hstar =>
    have hordered : base.contains '*' = false := by simpa using hstar.1
    rw [splitFirst_append hplus]
    simp only [hordered, splitFirst_append hstar.2]
    cases hbase : readName expr base <;> cases hindex : readName expr index <;>
      cases hscale : readScale text <;>
      simp [List.mapM_cons, hbase, hindex, hscale, bind, Except.bind, pure, Except.pure]

/-- The first plus and the first star leave five cases, of which one is out of order. -/
theorem isDisordered_or_fields (term : List Char) :
    IsDisordered term ∨ ∃ names scale, Fields term names scale := by
  cases hplus : splitFirst '+' term with
  | none =>
    rw [splitFirst_eq_none_iff] at hplus
    cases hstar : splitFirst '*' term with
    | none => exact .inr ⟨_, _, .base hplus (splitFirst_eq_none_iff.mp hstar)⟩
    | some found =>
      obtain ⟨index, text⟩ := found
      obtain ⟨rfl, hindex⟩ := splitFirst_eq_some_iff.mp hstar
      have hparts : '+' ∉ index ∧ '+' ∉ text := by simpa using hplus
      exact .inr ⟨_, _, .index hparts hindex⟩
  | some found =>
    obtain ⟨base, rest⟩ := found
    obtain ⟨rfl, hbase⟩ := splitFirst_eq_some_iff.mp hplus
    by_cases hordered : '*' ∈ base
    · exact .inl ⟨base, rest, rfl, hbase, hordered⟩
    · cases hstar : splitFirst '*' rest with
      | none =>
        exact .inr ⟨_, _, .baseIndex hbase ⟨hordered, splitFirst_eq_none_iff.mp hstar⟩⟩
      | some found =>
        obtain ⟨index, text⟩ := found
        obtain ⟨rfl, hindex⟩ := splitFirst_eq_some_iff.mp hstar
        exact .inr ⟨_, _, .baseIndexScale hbase ⟨hordered, hindex⟩⟩

theorem IsDisordered.readTerm_eq (h : IsDisordered term) (expr : List Char) :
    readTerm expr term = .error (.malformed (String.ofList term)) := by
  obtain ⟨base, rest, rfl, hplus, hstar⟩ := h
  have hdisordered : base.contains '*' = true := by simpa using hstar
  rw [readTerm, splitFirst_append hplus]
  simp only [hdisordered, if_true]

theorem readTerm_eq_error_iff : readTerm text term = .error error ↔ TermFault text term error := by
  constructor
  · intro h
    rcases isDisordered_or_fields term with hterm | ⟨names, scale, hfields⟩
    · rw [hterm.readTerm_eq] at h
      cases h
      exact .order hterm
    rw [hfields.readTerm_eq_error_iff, exists_mapM_readName_iff] at h
    rcases h with hnames | ⟨hnames, text, hmem, hscale⟩
    · obtain ⟨before, name, after, rfl, hbefore, hname⟩ := mapM_eq_error_iff.mp hnames
      rw [forall_isName_iff] at hbefore
      rcases readName_eq_error_iff.mp hname with ⟨rfl, rfl⟩ | ⟨hoperator, rfl⟩
      · exact .missing hfields hbefore
      · exact .operator hfields hbefore hoperator
    · obtain rfl := Option.mem_def.mp hmem
      obtain ⟨hvalue, rfl⟩ := readScale_eq_error_iff.mp hscale
      exact .scale hfields hnames hvalue
  · intro h
    -- The names in front of the first one at fault are read before it.
    have hfirst {before after : List (List Char)} {name : List Char} {scale : Option (List Char)}
        (hfields : Fields term (before ++ name :: after) scale)
        (hbefore : ∀ name ∈ before, IsName name) (hname : readName text name = .error error) :
        readTerm text term = .error error := by
      apply hfields.readTerm_eq_error_iff.mpr
      left
      have hread := (forall_isName_iff text).mpr hbefore
      exact mapM_eq_error_iff.mpr ⟨before, name, after, rfl, hread, hname⟩
    cases h with
    | order hterm => exact hterm.readTerm_eq text
    | missing hfields hbefore =>
      exact hfirst hfields hbefore (readName_eq_error_iff.mpr (.inl ⟨rfl, rfl⟩))
    | operator hfields hbefore hoperator =>
      exact hfirst hfields hbefore (readName_eq_error_iff.mpr (.inr ⟨hoperator, rfl⟩))
    | scale hfields hnames hvalue =>
      rw [hfields.readTerm_eq_error_iff, exists_mapM_readName_iff]
      exact .inr ⟨hnames, _, rfl, readScale_eq_error_iff.mpr ⟨hvalue, rfl⟩⟩

end Term

/-! ### Whole texts -/

section Whole

variable {text term before after : List Char} {sign : Sign} {error : AddressError}

theorem LastSign.isSuffix (h : LastSign text before sign after) : after <:+ text := by
  rw [h.text_eq]
  exact (List.suffix_cons sign.toChar after).trans (List.suffix_append before _)

theorem RegisterPart.isPrefix (h : RegisterPart text term) : term <+: text := by
  cases h with
  | displaced htext =>
    rw [htext]
    exact List.prefix_append _ _
  | whole => exact List.prefix_refl _

theorem Fields.scale_isSuffix {names : List (List Char)} {scale : List Char}
    (h : Fields term names (some scale)) : scale <:+ term := by
  have hscale (index : List Char) : scale <:+ index ++ '*' :: scale :=
    (List.suffix_cons '*' scale).trans (List.suffix_append index _)
  cases h with
  | index => exact hscale _
  | baseIndexScale =>
    exact ((hscale _).trans (List.suffix_cons '+' _)).trans (List.suffix_append _ _)

/-- An error shows a part of the text that has no gaps. -/
theorem Fault.fragment_isInfix (h : Fault text error) : error.fragment.toList <:+: text := by
  cases h with
  | disp hdisp =>
    cases hdisp with
    | literal hsign | range hsign =>
      rw [AddressError.fragment, String.toList_ofList]
      exact hsign.isSuffix.isInfix
  | term hne hpart hterm =>
    cases hterm with
    | order =>
      rw [AddressError.fragment, String.toList_ofList]
      exact hpart.isPrefix.isInfix
    | missing | operator =>
      simp only [AddressError.fragment, String.toList_ofList, List.infix_rfl]
    | scale hfields =>
      rw [AddressError.fragment, String.toList_ofList]
      exact hfields.scale_isSuffix.isInfix.trans hpart.isPrefix.isInfix

theorem parseChars_eq_error_iff : parseChars text = .error error ↔ Fault text error := by
  by_cases hne : text = []
  · subst hne
    constructor
    · intro h
      cases h
    · intro h
      cases h with
      | disp hdisp =>
        rw [← readSuffix_eq_error_iff] at hdisp
        cases hdisp
      | term hne => exact absurd rfl hne
  · rw [parseChars_of_ne_nil hne]
    constructor
    · intro h
      rcases bind_eq_error.mp h with hsuffix | ⟨⟨term, disp⟩, hsuffix, h⟩
      · exact .disp (readSuffix_eq_error_iff.mp hsuffix)
      rcases bind_eq_error.mp h with hterm | ⟨registers, -, h⟩
      · exact .term hne (registerPart_iff.mpr ⟨disp, hsuffix⟩) (readTerm_eq_error_iff.mp hterm)
      · cases h
    · intro h
      apply bind_eq_error.mpr
      cases h with
      | disp hdisp => exact .inl (readSuffix_eq_error_iff.mpr hdisp)
      | term _ hpart hterm =>
        obtain ⟨disp, hsuffix⟩ := registerPart_iff.mp hpart
        have hread := readTerm_eq_error_iff.mpr hterm
        exact .inr ⟨_, hsuffix, bind_eq_error.mpr (.inl hread)⟩

end Whole

/-- **The errors of the reader.** A text is refused with an error exactly if the error stands for a
fault of the text. Whatever the register part is, a fault of the displacement is the one reported,
and every error shows a part of the text. -/
theorem parse_eq_error_iff_fault (text : String) :
    (∀ error, parse text = .error error ↔ Fault text.toList error)
      ∧ (∀ error, DispFault text.toList error → parse text = .error error)
      ∧ ∀ error, parse text = .error error → error.fragment.toList <:+: text.toList := by
  refine ⟨fun error => parseChars_eq_error_iff, fun error hdisp => ?_, fun error h => ?_⟩
  · exact parseChars_eq_error_iff.mpr (.disp hdisp)
  · exact (parseChars_eq_error_iff.mp h).fragment_isInfix

/-- Of two faults the one of the displacement is reported, here a literal of more than 32 bits. -/
example : parse "*3+0x100000000000000000" = .error (.displacementRange "0x100000000000000000") := by
  decide +kernel

end MachineCode.AddressExpr
