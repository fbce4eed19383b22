import MachineCode.Address.Grammar

/-!
What is wrong with a text that is no address expression, stated without a reader. A fault of the
displacement goes before every fault of the register part.
-/

namespace MachineCode

/-- The text that an error shows. -/
def AddressError.fragment : AddressError → String
  | .displacement text | .displacementRange text | .scale text => text
  | .missingRegister expr | .malformed expr => expr

namespace AddressExpr

/-- The right-most sign of a text, with what stands before and after it. -/
structure LastSign (text before : List Char) (sign : Sign) (after : List Char) : Prop where
  text_eq : text = before ++ sign.toChar :: after
  plus : '+' ∉ after
  minus : '-' ∉ after

/-- A minus starts a displacement whatever follows it, and a plus only in front of a digit. -/
def StartsDisp (sign : Sign) (after : List Char) : Prop :=
  sign = .minus ∨ LooksNumeric (String.ofList after)

/-- What follows the right-most sign is to be a displacement and is none: it is no literal, or its
value needs more than 32 bits. -/
inductive DispFault (text : List Char) : AddressError → Prop where
  | literal {before after : List Char} {sign : Sign} (hsign : LastSign text before sign after)
      (hstarts : StartsDisp sign after) (hliteral : ∀ magnitude, ¬ IsLiteral after magnitude) :
      DispFault text (.displacement (String.ofList after))
  | range {before after : List Char} {sign : Sign} {magnitude : Nat}
      (hsign : LastSign text before sign after) (hliteral : IsLiteral after magnitude)
      (hrange : sign.apply magnitude < -0x80000000 ∨ 0x80000000 ≤ sign.apply magnitude) :
      DispFault text (.displacementRange (String.ofList after))

/-- The register part of a text: what stands before its displacement, or all of it if no
displacement starts there. -/
inductive RegisterPart (text : List Char) : List Char → Prop where
  | displaced {term suffix : List Char} {value : Int} (htext : text = term ++ suffix)
      (hsuffix : IsSuffix suffix value) (hne : suffix ≠ []) : RegisterPart text term
  | whole (hsign : ∀ before sign after, LastSign text before sign after → ¬ StartsDisp sign after) :
      RegisterPart text text

/-- The texts at the places of the names of a register part, in order, and the one at the place of
its scale. The first plus and the first star mark these places. -/
inductive Fields : List Char → List (List Char) → Option (List Char) → Prop where
  | base {base : List Char} (hplus : '+' ∉ base) (hstar : '*' ∉ base) : Fields base [base] none
  | index {index scale : List Char} (hplus : '+' ∉ index ∧ '+' ∉ scale) (hstar : '*' ∉ index) :
      Fields (index ++ '*' :: scale) [index] (some scale)
  | baseIndex {base index : List Char} (hplus : '+' ∉ base) (hstar : '*' ∉ base ∧ '*' ∉ index) :
      Fields (base ++ '+' :: index) [base, index] none
  | baseIndexScale {base index scale : List Char} (hplus : '+' ∉ base)
      (hstar : '*' ∉ base ∧ '*' ∉ index) :
      Fields (base ++ '+' :: (index ++ '*' :: scale)) [base, index] (some scale)

/-- The first star of a register part stands before its first plus. -/
def IsDisordered (term : List Char) : Prop :=
  ∃ base rest, term = base ++ '+' :: rest ∧ '+' ∉ base ∧ '*' ∈ base

/-- A fault of the register part `term` of a text. Of several names at fault the first one counts,
and the scale counts only behind names that have no fault. -/
inductive TermFault (text term : List Char) : AddressError → Prop where
  | order (hterm : IsDisordered term) : TermFault text term (.malformed (String.ofList term))
  | missing {before after : List (List Char)} {scale : Option (List Char)}
      (hfields : Fields term (before ++ [] :: after) scale)
      (hbefore : ∀ name ∈ before, IsName name) :
      TermFault text term (.missingRegister (String.ofList text))
  | operator {before after : List (List Char)} {name : List Char} {scale : Option (List Char)}
      (hfields : Fields term (before ++ name :: after) scale)
      (hbefore : ∀ name ∈ before, IsName name)
      (hoperator : '+' ∈ name ∨ '-' ∈ name ∨ '*' ∈ name) :
      TermFault text term (.malformed (String.ofList text))
  | scale {names : List (List Char)} {scale : List Char} (hfields : Fields term names (some scale))
      (hnames : ∀ name ∈ names, IsName name) (hscale : ∀ value, ¬ IsScale scale value) :
      TermFault text term (.scale (String.ofList scale))

/-- The error stands for what is wrong with the text. -/
inductive Fault (text : List Char) : AddressError → Prop where
  | disp {error : AddressError} (hdisp : DispFault text error) : Fault text error
  | term {term : List Char} {error : AddressError} (hne : text ≠ [])
      (hpart : RegisterPart text term) (hterm : TermFault text term error) : Fault text error

end AddressExpr

end MachineCode
