import MachineCode.Json.Basic

/-!
From JSON text to tokens.
-/

namespace MachineCode.Json

def isBlank (c : Char) : Bool := c = ' ' || c = '\n' || c = '\t' || c = '\r'

/-- The value of a hexadecimal digit, in either case. -/
def hexValue? (c : Char) : Option Nat :=
  if c.isDigit then some (c.toNat - 48)
  else if 'a' ≤ c && c ≤ 'f' then some (c.toNat - 87)
  else if 'A' ≤ c && c ≤ 'F' then some (c.toNat - 55)
  else none

def hexUnit? (a b c d : Char) : Option Nat := do
  return 4096 * (← hexValue? a) + 256 * (← hexValue? b) + 16 * (← hexValue? c) + (← hexValue? d)

/-- The character that follows a backslash in a two-character escape. -/
def escapeValue? : Char → Option Nat
  | '"' => some 0x22
  | '\\' => some 0x5C
  | '/' => some 0x2F
  | 'b' => some 0x08
  | 'f' => some 0x0C
  | 'n' => some 0x0A
  | 'r' => some 0x0D
  | 't' => some 0x09
  | _ => none

/-- Reads a string behind its opening quote, as code points and surrogates, with the text behind
the closing quote. -/
def readString : List Char → Option (List Nat × List Char)
  | [] => none
  | '"' :: rest => some ([], rest)
  | '\\' :: 'u' :: a :: b :: c :: d :: rest => do
    let unit ← hexUnit? a b c d
    let (units, rest) ← readString rest
    return (unit :: units, rest)
  | '\\' :: c :: rest => do
    let unit ← escapeValue? c
    let (units, rest) ← readString rest
    return (unit :: units, rest)
  | c :: rest =>
    if c.toNat < 0x20 then
      none
    else do
      let (units, rest) ← readString rest
      return (c.toNat :: units, rest)

def isHighSurrogate (unit : Nat) : Bool := 0xD800 ≤ unit && unit < 0xDC00

def isLowSurrogate (unit : Nat) : Bool := 0xDC00 ≤ unit && unit < 0xE000

/-- The text of code points and surrogates, if every surrogate is one of a pair. -/
def textOfUnits : List Nat → Option (List Char)
  | [] => some []
  | [unit] =>
    if isHighSurrogate unit || isLowSurrogate unit then none else some [Char.ofNat unit]
  | unit :: next :: rest =>
    if isHighSurrogate unit then
      if isLowSurrogate next then
        (textOfUnits rest).map
          (Char.ofNat (0x10000 + 1024 * (unit - 0xD800) + (next - 0xDC00)) :: ·)
      else
        none
    else if isLowSurrogate unit then
      none
    else
      (textOfUnits (next :: rest)).map (Char.ofNat unit :: ·)

/-- Splits off the decimal digits at the front. -/
def spanDigits : List Char → List Char × List Char
  | [] => ([], [])
  | c :: rest =>
    if c.isDigit then
      ((c :: (spanDigits rest).1), (spanDigits rest).2)
    else
      ([], c :: rest)

/-- Reads the digits of an integer part, which has no leading zero. -/
def readInteger (text : List Char) : Option (Nat × List Char) :=
  match spanDigits text with
  | ([], _) => none
  | (['0'], rest) => some (0, rest)
  | ('0' :: _, _) => none
  | (digits, rest) => some (Nat.ofDigitChars 10 digits 0, rest)

/-- Reads a fraction, if there is one; the flag tells. -/
def readFraction : List Char → Option (Bool × List Char)
  | '.' :: rest =>
    match spanDigits rest with
    | ([], _) => none
    | (_, rest) => some (true, rest)
  | rest => some (false, rest)

/-- The digits of an exponent behind its letter and an optional sign. -/
def readExponentDigits : List Char → Option (List Char)
  | '+' :: rest | '-' :: rest | rest =>
    match spanDigits rest with
    | ([], _) => none
    | (_, rest) => some rest

/-- Reads an exponent, if there is one; the flag tells. -/
def readExponent : List Char → Option (Bool × List Char)
  | 'e' :: rest | 'E' :: rest => (readExponentDigits rest).map fun rest => (true, rest)
  | rest => some (false, rest)

def readNumber (negative : Bool) (text : List Char) : Option (Token × List Char) := do
  let (magnitude, rest) ← readInteger text
  let (fraction, rest) ← readFraction rest
  let (exponent, rest) ← readExponent rest
  let token : Token :=
    if fraction || exponent || (negative && magnitude = 0) then .decimal
    else .integer (if negative then -magnitude else magnitude)
  return (token, rest)

/-- Reads a token that starts with the given character. -/
def readToken : Char → List Char → Option (Token × List Char)
  | '\x7b', rest => some (.openBrace, rest)
  | '\x7d', rest => some (.closeBrace, rest)
  | '[', rest => some (.openBracket, rest)
  | ']', rest => some (.closeBracket, rest)
  | ':', rest => some (.colon, rest)
  | ',', rest => some (.comma, rest)
  | 'n', 'u' :: 'l' :: 'l' :: rest => some (.null, rest)
  | 't', 'r' :: 'u' :: 'e' :: rest => some (.bool true, rest)
  | 'f', 'a' :: 'l' :: 's' :: 'e' :: rest => some (.bool false, rest)
  | '"', rest => do
    let (units, rest) ← readString rest
    return (.string ((textOfUnits units).map String.ofList), rest)
  | '-', rest => readNumber true rest
  | c, rest => readNumber false (c :: rest)

/-- The tokens of a text; `fuel` bounds their number. -/
def lexWithin : Nat → List Char → Option (List Token)
  | _, [] => some []
  | 0, _ :: _ => none
  | fuel + 1, c :: rest =>
    if isBlank c then
      lexWithin fuel rest
    else do
      let (token, rest) ← readToken c rest
      return token :: (← lexWithin fuel rest)

/-- The tokens of a text. Every token has a character, so the length of the text is fuel enough. -/
def lex (text : List Char) : Option (List Token) := lexWithin text.length text

end MachineCode.Json
