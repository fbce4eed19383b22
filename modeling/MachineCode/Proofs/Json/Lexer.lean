import Mathlib.Data.List.Chain
import MachineCode.Json.Lexer
import MachineCode.Json.Printer

/-!
# Tokens in their text

The text of a list of tokens reads back as these tokens, if every string is a text and no number
stands directly behind another. A number ends where a delimiter starts; every other token shows its
end itself.
-/

namespace MachineCode.Json

/-! ### Strings -/

theorem hexValue?_digitChar : ∀ digit < 16, hexValue? (Nat.digitChar digit) = some digit := by
  decide

/-- A control character is written as its number. -/
theorem hexUnit?_control {value : Nat} (h : value < 0x20) :
    hexUnit? '0' '0' (Nat.digitChar (value / 16)) (Nat.digitChar (value % 16)) = some value := by
  have hhigh := hexValue?_digitChar (value / 16) (by omega)
  have hlow := hexValue?_digitChar (value % 16) (by omega)
  have hzero : hexValue? '0' = some 0 := by decide
  rw [hexUnit?, hzero, hhigh, hlow]
  simp only [Option.bind_eq_bind, Option.bind_some, Option.pure_def]
  congr 1
  omega

section Escapes

variable {unit : Nat} {rest : List Char}

theorem readString_plain {c : Char} (hquote : c ≠ '"') (hbackslash : c ≠ '\\')
    (hprintable : ¬ c.toNat < 0x20) :
    readString (c :: rest)
      = (readString rest).map fun (units, rest) => (c.toNat :: units, rest) := by
  rw [readString, if_neg hprintable]
  · cases readString rest <;> rfl
  · rintro rfl
    exact hquote rfl
  · rintro a b c' d rest' rfl
    exact fun _ => hbackslash rfl
  · rintro c' rest' rfl
    exact fun _ => hbackslash rfl

theorem readString_short {c : Char} (h : escapeValue? c = some unit) :
    readString ('\\' :: c :: rest)
      = (readString rest).map fun (units, rest) => (unit :: units, rest) := by
  have hne : c ≠ 'u' := by
    rintro rfl
    cases h
  rw [readString, h]
  · cases readString rest <;> rfl
  · intro a b c' d rest' heq
    exact absurd heq hne

theorem readString_long {a b c d : Char} (h : hexUnit? a b c d = some unit) :
    readString ('\\' :: 'u' :: a :: b :: c :: d :: rest)
      = (readString rest).map fun (units, rest) => (unit :: units, rest) := by
  rw [readString, h]
  cases readString rest <;> rfl

end Escapes

theorem readString_escape (c : Char) (rest : List Char) :
    readString (escape c ++ rest)
      = (readString rest).map fun (units, rest) => (c.toNat :: units, rest) := by
  rw [escape]
  -- Seven characters have an escape of their own.
  iterate 7
    split
    · subst_vars
      exact readString_short rfl
  split
  · rename_i hcontrol
    exact readString_long (hexUnit?_control hcontrol)
  · rename_i hquote hbackslash _ _ _ _ _ hprintable
    exact readString_plain hquote hbackslash hprintable

theorem readString_flatMap_escape (text rest : List Char) :
    readString (text.flatMap escape ++ '"' :: rest) = some (text.map Char.toNat, rest) := by
  induction text with
  | nil => rfl
  | cons c text ih =>
    rw [List.flatMap_cons, List.append_assoc, readString_escape, ih]
    rfl

theorem not_surrogate (c : Char) :
    isHighSurrogate c.toNat = false ∧ isLowSurrogate c.toNat = false := by
  have hvalid : c.toNat.isValidChar := c.valid
  simp only [Nat.isValidChar] at hvalid
  simp [isHighSurrogate, isLowSurrogate]
  omega

theorem textOfUnits_map_toNat (text : List Char) :
    textOfUnits (text.map Char.toNat) = some text := by
  induction text with
  | nil => rfl
  | cons c text ih =>
    obtain ⟨hhigh, hlow⟩ := not_surrogate c
    cases text with
    | nil => simp [textOfUnits, hhigh, hlow]
    | cons next text =>
      rw [List.map_cons, List.map_cons] at *
      rw [textOfUnits, hhigh, hlow, ih]
      simp

/-! ### Numbers -/

/-- A number is over where this text starts. -/
def EndsNumber (rest : List Char) : Prop :=
  ∀ c more, rest = c :: more → c.isDigit = false ∧ c ≠ '.' ∧ c ≠ 'e' ∧ c ≠ 'E'

section Numbers

variable {rest : List Char}

theorem spanDigits_append {digits : List Char} (hdigits : ∀ c ∈ digits, c.isDigit)
    (hrest : EndsNumber rest) : spanDigits (digits ++ rest) = (digits, rest) := by
  induction digits with
  | nil =>
    cases rest with
    | nil => rfl
    | cons c more => simp [spanDigits, (hrest c more rfl).1]
  | cons c digits ih =>
    rw [List.forall_mem_cons] at hdigits
    simp [spanDigits, hdigits.1, ih hdigits.2]

/-- Only zero is written with a zero in front. -/
theorem head?_toDigits {value : Nat} (h : 0 < value) :
    (Nat.toDigits 10 value).head? ≠ some '0' := by
  induction value using Nat.strong_induction_on with
  | _ value ih =>
    by_cases hsmall : value < 10
    · have hdigit : ∀ digit < 10, 0 < digit → [Nat.digitChar digit].head? ≠ some '0' := by decide
      rw [Nat.toDigits_of_lt_base hsmall]
      exact hdigit value hsmall h
    · rw [Nat.toDigits_of_base_le (by decide) (by omega),
        List.head?_append_of_ne_nil _ Nat.toDigits_ne_nil]
      exact ih (value / 10) (by omega) (by omega)

theorem readInteger_toDigits (hrest : EndsNumber rest) (value : Nat) :
    readInteger (Nat.toDigits 10 value ++ rest) = some (value, rest) := by
  have hdigits : ∀ c ∈ Nat.toDigits 10 value, c.isDigit :=
    fun c => Nat.isDigit_of_mem_toDigits (by decide) (by decide)
  rw [readInteger, spanDigits_append hdigits hrest]
  by_cases hzero : value = 0
  · subst hzero
    rfl
  · have hhead := head?_toDigits (Nat.pos_of_ne_zero hzero)
    have hvalue := @Nat.ofDigitChars_ten_toDigits value
    have hne := @Nat.toDigits_ne_nil value 10
    generalize Nat.toDigits 10 value = digits at hhead hvalue hne
    rw [← hvalue]
    split
    · rename_i heq
      exact absurd (Prod.mk.inj heq).1 hne
    · rename_i heq
      cases heq
      exact absurd rfl hhead
    · rename_i heq
      cases heq
      exact absurd rfl hhead
    · rename_i heq
      cases heq
      rfl

theorem readFraction_of_endsNumber (hrest : EndsNumber rest) :
    readFraction rest = some (false, rest) := by
  cases rest with
  | nil => rfl
  | cons c more =>
    rw [readFraction]
    intro more' heq
    exact (hrest c more rfl).2.1 (List.cons.inj heq).1

theorem readExponent_of_endsNumber (hrest : EndsNumber rest) :
    readExponent rest = some (false, rest) := by
  cases rest with
  | nil => rfl
  | cons c more =>
    rw [readExponent]
    · intro more' heq
      exact (hrest c more rfl).2.2.1 (List.cons.inj heq).1
    · intro more' heq
      exact (hrest c more rfl).2.2.2 (List.cons.inj heq).1

theorem readNumber_toDigits (negative : Bool) (hrest : EndsNumber rest) (value : Nat) :
    readNumber negative (Nat.toDigits 10 value ++ rest)
      = some (if negative && value = 0 then .decimal
          else .integer (if negative then -value else value), rest) := by
  rw [readNumber, readInteger_toDigits hrest]
  simp only [Option.bind_eq_bind, Option.bind_some, readFraction_of_endsNumber hrest,
    readExponent_of_endsNumber hrest, Bool.false_or]
  rfl

end Numbers

/-! ### Tokens -/

namespace Token

def isNumber : Token → Bool
  | .integer _ | .decimal => true
  | _ => false

def isDelimiter : Token → Bool
  | .comma | .closeBracket | .closeBrace => true
  | _ => false

end Token

theorem ne_of_isDigit {c other : Char} (hdigit : c.isDigit) (hother : other.isDigit = false) :
    c ≠ other := by
  rintro rfl
  rw [hdigit] at hother
  cases hother

theorem isBlank_of_isDigit {c : Char} (hdigit : c.isDigit) : isBlank c = false := by
  simp [isBlank, ne_of_isDigit hdigit]

theorem readToken_digit {c : Char} (hdigit : c.isDigit) (more : List Char) :
    readToken c more = readNumber false (c :: more) := by
  rw [readToken]
  all_goals first
    | exact ne_of_isDigit hdigit rfl
    | exact fun _ heq => absurd heq (ne_of_isDigit hdigit rfl)

theorem readToken_negative {value : Int} (hnegative : value < 0) {rest : List Char}
    (hrest : EndsNumber rest) :
    readToken '-' (Nat.toDigits 10 value.natAbs ++ rest) = some (.integer value, rest) := by
  have hvalue : -(value.natAbs : Int) = value := by omega
  have hne : value.natAbs ≠ 0 := by omega
  change readNumber true _ = _
  rw [readNumber_toDigits true hrest, if_neg (by simpa using hne), if_pos rfl, hvalue]

theorem readToken_toDigits (magnitude : Nat) {rest : List Char} (hrest : EndsNumber rest) :
    ∃ c more, Nat.toDigits 10 magnitude = c :: more ∧ isBlank c = false
      ∧ readToken c (more ++ rest) = some (.integer magnitude, rest) := by
  obtain ⟨c, more, hdigits⟩ := List.exists_cons_of_ne_nil (@Nat.toDigits_ne_nil magnitude 10)
  have hdigit : c.isDigit := by
    refine Nat.isDigit_of_mem_toDigits (by decide) (Nat.le_refl 10) (n := magnitude) ?_
    rw [hdigits]
    exact List.mem_cons_self
  refine ⟨c, more, hdigits, isBlank_of_isDigit hdigit, ?_⟩
  rw [readToken_digit hdigit, ← List.cons_append, ← hdigits, readNumber_toDigits false hrest,
    if_neg (by simp), if_neg (by simp)]

theorem readToken_string (text : String) (rest : List Char) :
    readToken '"' ((text.toList.flatMap escape ++ ['"']) ++ rest)
      = some (.string (some text), rest) := by
  rw [readToken, List.append_assoc, List.singleton_append, readString_flatMap_escape]
  simp [textOfUnits_map_toNat]

/-- The text of a token reads back as the token, up to a place where a number is over. -/
theorem readToken_chars {token : Token} (hstring : token ≠ .string none) {rest : List Char}
    (hrest : token.isNumber → EndsNumber rest) :
    ∃ c more, token.chars = c :: more ∧ isBlank c = false
      ∧ readToken c (more ++ rest) = some (token, rest) := by
  cases token with
  | bool value => cases value <;> exact ⟨_, _, rfl, rfl, rfl⟩
  | integer value =>
    by_cases hnegative : value < 0
    · refine ⟨'-', Nat.toDigits 10 value.natAbs, ?_, rfl,
        readToken_negative hnegative (hrest rfl)⟩
      rw [Token.chars, if_pos hnegative]
      rfl
    · obtain ⟨c, more, hdigits, hblank, hread⟩ := readToken_toDigits value.natAbs (hrest rfl)
      have hvalue : (value.natAbs : Int) = value := by omega
      rw [hvalue] at hread
      refine ⟨c, more, ?_, hblank, hread⟩
      rw [Token.chars, if_neg hnegative, List.nil_append, hdigits]
  | decimal => exact ⟨_, _, rfl, rfl, readNumber_toDigits true (hrest rfl) 0⟩
  | string text =>
    cases text with
    | none => exact absurd rfl hstring
    | some text => exact ⟨_, _, rfl, rfl, readToken_string text rest⟩
  | _ => exact ⟨_, _, rfl, rfl, rfl⟩

/-! ### Lists of tokens -/

/-- Behind a number stands a delimiter, or nothing. -/
def Separated (tokens : List Token) : Prop :=
  tokens.IsChain fun token next => token.isNumber → next.isDelimiter

theorem endsNumber_of_separated {token : Token} {tokens : List Token}
    (h : Separated (token :: tokens)) (hnumber : token.isNumber) :
    EndsNumber (tokens.flatMap Token.chars) := by
  intro c more heq
  cases tokens with
  | nil => cases heq
  | cons next tokens =>
    have hdelimiter := (List.isChain_cons_cons.mp h).1 hnumber
    cases next <;> cases hdelimiter <;> cases heq <;> decide

theorem lexWithin_chars {tokens : List Token} (hseparated : Separated tokens)
    (hstrings : .string none ∉ tokens) {fuel : Nat} (hfuel : tokens.length ≤ fuel) :
    lexWithin fuel (tokens.flatMap Token.chars) = some tokens := by
  induction tokens generalizing fuel with
  | nil => cases fuel <;> rfl
  | cons token tokens ih =>
    rw [List.mem_cons, not_or] at hstrings
    obtain ⟨fuel, rfl⟩ : ∃ less, fuel = less + 1 := ⟨fuel - 1, by simp at hfuel; omega⟩
    obtain ⟨c, more, hchars, hblank, hread⟩ :=
      readToken_chars (Ne.symm hstrings.1) (endsNumber_of_separated hseparated)
    have htail : Separated tokens := (List.isChain_cons.mp hseparated).2
    have hrest := ih htail hstrings.2 (Nat.le_of_succ_le_succ hfuel)
    rw [List.flatMap_cons, hchars, List.cons_append, lexWithin, if_neg (by simp [hblank]), hread]
    simp only [Option.bind_eq_bind, Option.bind_some, hrest]
    rfl

theorem Token.chars_ne_nil (token : Token) : token.chars ≠ [] := by
  cases token with
  | bool value => cases value <;> simp [chars]
  | integer value => simp [chars, Nat.toDigits_ne_nil]
  | _ => simp [chars]

theorem length_le_flatMap_chars (tokens : List Token) :
    tokens.length ≤ (tokens.flatMap Token.chars).length := by
  induction tokens with
  | nil => exact Nat.le_refl 0
  | cons token tokens ih =>
    have hpos := List.length_pos_of_ne_nil token.chars_ne_nil
    rw [List.flatMap_cons, List.length_append, List.length_cons]
    omega

/-! ### The tokens of a value -/

theorem Separated.cons {token : Token} {tokens : List Token} (htoken : token.isNumber = false)
    (h : Separated tokens) : Separated (token :: tokens) := by
  refine List.isChain_cons.mpr ⟨fun next _ hnumber => ?_, h⟩
  rw [htoken] at hnumber
  cases hnumber

/-- A delimiter keeps apart what stands before it and behind it. -/
theorem Separated.append {tokens behind : List Token} {delimiter : Token}
    (hdelimiter : delimiter.isDelimiter) (h : Separated tokens)
    (hbehind : Separated (delimiter :: behind)) : Separated (tokens ++ delimiter :: behind) := by
  refine List.isChain_append.mpr ⟨h, hbehind, fun token _ next hnext _ => ?_⟩
  cases hnext
  exact hdelimiter

mutual

theorem separated_tokens (value : Json) : Separated value.tokens := by
  cases value with
  | array items =>
    exact .cons rfl (.append rfl (separated_itemTokens items) (.singleton _))
  | object members =>
    exact .cons rfl (.append rfl (separated_memberTokens members) (.singleton _))
  | _ => exact .singleton _

theorem separated_itemTokens (items : List Json) : Separated (itemTokens items) := by
  match items with
  | [] => exact .nil
  | [item] => exact separated_tokens item
  | item :: next :: items =>
    exact .append rfl (separated_tokens item) (.cons rfl (separated_itemTokens (next :: items)))

theorem separated_memberTokens (members : List (Option String × Json)) :
    Separated (memberTokens members) := by
  match members with
  | [] => exact .nil
  | [(key, value)] => exact .cons rfl (.cons rfl (separated_tokens value))
  | (key, value) :: next :: members =>
    exact .cons rfl (.cons rfl (.append rfl (separated_tokens value)
      (.cons rfl (separated_memberTokens (next :: members)))))

end

/-- The text of a value reads back as the tokens of the value. -/
theorem lex_text {value : Json} (hstrings : .string none ∉ value.tokens) :
    lex value.text.toList = some value.tokens := by
  rw [lex, text, String.toList_ofList]
  exact lexWithin_chars (separated_tokens value) hstrings (length_le_flatMap_chars value.tokens)

end MachineCode.Json
