import MachineCode.Address.Expr

/-!
Reading address expressions. A register part of one of the four forms `base`, `index*scale`,
`base+index` and `base+index*scale` may be followed by a sign and a displacement literal.
-/

namespace MachineCode

/-- Why an address expression is refused, with the text at fault. -/
inductive AddressError where
  | displacement (text : String)
  | displacementRange (text : String)
  | scale (text : String)
  | missingRegister (expr : String)
  | malformed (expr : String)
deriving DecidableEq, Repr

def AddressError.message : AddressError → String
  | .displacement text => s!"invalid displacement '{text}'"
  | .displacementRange text => s!"displacement '{text}' does not fit in 32 bits"
  | .scale text => s!"invalid scale '{text}' (expected 1, 2, 4 or 8)"
  | .missingRegister expr => s!"missing register name in '{expr}'"
  | .malformed expr => s!"malformed address expression '{expr}'"

inductive Sign where
  | plus
  | minus
deriving DecidableEq, Repr

namespace Sign

def ofChar? : Char → Option Sign
  | '+' => some .plus
  | '-' => some .minus
  | _ => none

def toChar : Sign → Char
  | .plus => '+'
  | .minus => '-'

def apply : Sign → Nat → Int
  | .plus, magnitude => magnitude
  | .minus, magnitude => -magnitude

end Sign

namespace AddressExpr

/-- The text before and after the first occurrence of a character. -/
def splitFirst (sep : Char) : List Char → Option (List Char × List Char)
  | [] => none
  | c :: rest =>
    if c = sep then
      some ([], rest)
    else
      (splitFirst sep rest).map fun (before, after) => (c :: before, after)

/-- The right-most sign, with the text before and after it. -/
def splitLastSign : List Char → Option (List Char × Sign × List Char)
  | [] => none
  | c :: rest =>
    match splitLastSign rest with
    | some (before, sign, after) => some (c :: before, sign, after)
    | none => (Sign.ofChar? c).map fun sign => ([], sign, rest)

def digitsValue (radix : Nat) (digits : List Char) : Nat :=
  digits.foldl (fun value c => radix * value + Hex.digitValue c) 0

/-- The value of a literal: decimal digits, or `0x` and lowercase hexadecimal digits. -/
def literal? : List Char → Option Nat
  | '0' :: 'x' :: digits =>
    if !digits.isEmpty && digits.all Hex.isDigit then some (digitsValue 16 digits) else none
  | digits =>
    if !digits.isEmpty && digits.all Char.isDigit then some (digitsValue 10 digits) else none

/-- The displacement of a sign and the literal behind it. -/
def readDisp (sign : Sign) (text : List Char) : Except AddressError Int32 :=
  match literal? text with
  | none => .error (.displacement (String.ofList text))
  | some magnitude =>
    let value := sign.apply magnitude
    if -0x80000000 ≤ value ∧ value < 0x80000000 then
      .ok (Int32.ofInt value)
    else
      .error (.displacementRange (String.ofList text))

/-- Separates the displacement from the register part. The right-most sign starts a displacement
when a decimal digit follows it. Otherwise a plus belongs to the register part, and a minus has no
displacement to stand before. -/
def readSuffix (expr : List Char) : Except AddressError (List Char × Int32) :=
  match splitLastSign expr with
  | none => .ok (expr, 0)
  | some (before, sign, after) =>
    if (after.head?.map Char.isDigit).getD false then
      (readDisp sign after).map fun disp => (before, disp)
    else
      match sign with
      | .plus => .ok (expr, 0)
      | .minus => .error (.displacement (String.ofList after))

def isOperator (c : Char) : Bool := c = '+' || c = '-' || c = '*'

/-- A register name is not empty and holds no operator; `expr` is the whole text, for the error. -/
def readName (expr name : List Char) : Except AddressError String :=
  if name.isEmpty then
    .error (.missingRegister (String.ofList expr))
  else if name.any isOperator then
    .error (.malformed (String.ofList expr))
  else
    .ok (String.ofList name)

def readScale : List Char → Except AddressError UInt8
  | ['1'] => .ok 1
  | ['2'] => .ok 2
  | ['4'] => .ok 4
  | ['8'] => .ok 8
  | text => .error (.scale (String.ofList text))

/-- Reads the register part `term` of the text `expr`. The plus has to stand before the star. -/
def readTerm (expr term : List Char) : Except AddressError AddressExpr :=
  match splitFirst '+' term with
  | none =>
    match splitFirst '*' term with
    | none => do
      return .ofBase (← readName expr term)
    | some (index, scale) => do
      return .ofIndex (← readName expr index) (← readScale scale)
  | some (base, rest) =>
    if base.contains '*' then
      .error (.malformed (String.ofList term))
    else
      match splitFirst '*' rest with
      | none => do
        return .ofBaseIndex (← readName expr base) (← readName expr rest) 0
      | some (index, scale) => do
        return .ofBaseIndex (← readName expr base) (← readName expr index) (← readScale scale)

/-- Reads an address expression. The empty text is the empty address. -/
def parseChars (expr : List Char) : Except AddressError AddressExpr :=
  if expr.isEmpty then
    .ok {}
  else do
    let (term, disp) ← readSuffix expr
    return (← readTerm expr term).displaced disp

def parse (text : String) : Except AddressError AddressExpr := parseChars text.toList

end AddressExpr

end MachineCode
