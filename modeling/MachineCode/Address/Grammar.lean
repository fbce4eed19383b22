import MachineCode.Address.Parser

/-!
The language of address expressions, stated without a reader: which texts there are, and which
address each of them stands for.
-/

namespace MachineCode.AddressExpr

def IsName (name : List Char) : Prop := name ≠ [] ∧ '+' ∉ name ∧ '-' ∉ name ∧ '*' ∉ name

inductive IsScale : List Char → UInt8 → Prop where
  | one : IsScale ['1'] 1
  | two : IsScale ['2'] 2
  | four : IsScale ['4'] 4
  | eight : IsScale ['8'] 8

inductive IsTerm : List Char → AddressExpr → Prop where
  | base {base : List Char} (hbase : IsName base) : IsTerm base (.ofBase (String.ofList base))
  | index {index text : List Char} {scale : UInt8} (hindex : IsName index)
      (hscale : IsScale text scale) :
      IsTerm (index ++ '*' :: text) (.ofIndex (String.ofList index) scale)
  | baseIndex {base index : List Char} (hbase : IsName base) (hindex : IsName index) :
      IsTerm (base ++ '+' :: index) (.ofBaseIndex (String.ofList base) (String.ofList index) 0)
  | baseIndexScale {base index text : List Char} {scale : UInt8} (hbase : IsName base)
      (hindex : IsName index) (hscale : IsScale text scale) :
      IsTerm (base ++ '+' :: index ++ '*' :: text)
        (.ofBaseIndex (String.ofList base) (String.ofList index) scale)

/-- The value of a text of digits below the radix, the last digit counting ones. -/
inductive IsNumeral (radix : Nat) : List Char → Nat → Prop where
  | digit {digit : Nat} (hdigit : digit < radix) : IsNumeral radix [digit.digitChar] digit
  | snoc {text : List Char} {value digit : Nat} (htext : IsNumeral radix text value)
      (hdigit : digit < radix) :
      IsNumeral radix (text ++ [digit.digitChar]) (radix * value + digit)

inductive IsLiteral : List Char → Nat → Prop where
  | decimal {text : List Char} {value : Nat} (htext : IsNumeral 10 text value) :
      IsLiteral text value
  | hex {text : List Char} {value : Nat} (htext : IsNumeral 16 text value) :
      IsLiteral ('0' :: 'x' :: text) value

/-- What may follow the register part: nothing, or a sign and a literal of the right size. -/
inductive IsSuffix : List Char → Int → Prop where
  | none : IsSuffix [] 0
  | signed (sign : Sign) {text : List Char} {magnitude : Nat} (hliteral : IsLiteral text magnitude)
      (hlow : -0x80000000 ≤ sign.apply magnitude) (hhigh : sign.apply magnitude < 0x80000000) :
      IsSuffix (sign.toChar :: text) (sign.apply magnitude)

/-- The text starts with a decimal digit, as a displacement does. -/
def LooksNumeric (text : String) : Prop := ∃ c rest, text.toList = c :: rest ∧ '0' ≤ c ∧ c ≤ '9'

/-- A way to read a text: a register part, and a suffix of the given value. Without a suffix, an
index behind a plus must not look like a displacement. -/
structure IsReading (text term suffix : List Char) (registers : AddressExpr) (disp : Int) :
    Prop where
  text_eq : text = term ++ suffix
  isTerm : IsTerm term registers
  isSuffix : IsSuffix suffix disp
  index : suffix = [] → '+' ∈ term → ¬ LooksNumeric registers.index

/-- The text stands for the address. -/
inductive Denotes : List Char → AddressExpr → Prop where
  | empty : Denotes [] {}
  | address {text term suffix : List Char} {registers : AddressExpr} {disp : Int}
      (hreading : IsReading text term suffix registers disp) :
      Denotes text (registers.displaced (Int32.ofInt disp))

/-! ### Addresses and their text -/

/-- The index comes last in the text of the address, behind a plus, and starts like a displacement. -/
def IndexReadsAsDisp (expr : AddressExpr) : Prop :=
  expr.base ≠ "" ∧ expr.disp = 0 ∧ LooksNumeric expr.index

/-- The fields can be told apart in the text: the names hold no operator, at least one is given, the
index does not look like a displacement, and the scale is one that can be written. -/
structure IsPlain (expr : AddressExpr) : Prop where
  base : ∀ c ∈ expr.base.toList, isOperator c = false
  index : ∀ c ∈ expr.index.toList, isOperator c = false
  named : ¬ (expr.base = "" ∧ expr.index = "")
  notNumeric : ¬ LooksNumeric expr.index
  scale : expr.scale ∈ [0, 1, 2, 4, 8]

/-- The text of the address shows all of its fields: the names hold no operator and one of them is
given, the scale is one that the text shows, and an index with nothing behind it does not start like
a displacement. -/
structure IsRecoverable (expr : AddressExpr) : Prop where
  base : '+' ∉ expr.base.toList ∧ '-' ∉ expr.base.toList ∧ '*' ∉ expr.base.toList
  index : '+' ∉ expr.index.toList ∧ '-' ∉ expr.index.toList ∧ '*' ∉ expr.index.toList
  named : ¬ (expr.base = "" ∧ expr.index = "")
  scale_noIndex : expr.index = "" → expr.scale = 0
  scale_index : expr.base = "" → expr.index ≠ "" → expr.scale ∈ [1, 2, 4, 8]
  scale_baseIndex : expr.base ≠ "" → expr.index ≠ "" → expr.scale ∈ [0, 1, 2, 4, 8]
  notNumeric : expr.base ≠ "" → expr.index ≠ "" → expr.disp = 0 → ¬ LooksNumeric expr.index

end MachineCode.AddressExpr
