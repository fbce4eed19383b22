import MachineCode.Json.Basic
import MachineCode.Text.Hex

/-!
The compact text of JSON values: no blanks, members in their order, and only those escapes that the
format demands.
-/

namespace MachineCode.Json

def escape (c : Char) : List Char :=
  if c = '"' then ['\\', '"']
  else if c = '\\' then ['\\', '\\']
  else if c = '\x08' then ['\\', 'b']
  else if c = '\x0c' then ['\\', 'f']
  else if c = '\n' then ['\\', 'n']
  else if c = '\r' then ['\\', 'r']
  else if c = '\t' then ['\\', 't']
  else if c.toNat < 0x20 then
    ['\\', 'u', '0', '0', Nat.digitChar (c.toNat / 16), Nat.digitChar (c.toNat % 16)]
  else [c]

/-- The text of a token. A number that is no plain integer has lost its value, and is written as
one that reads back as such a number. -/
def Token.chars : Token → List Char
  | .openBrace => ['\x7b']
  | .closeBrace => ['\x7d']
  | .openBracket => ['[']
  | .closeBracket => [']']
  | .colon => [':']
  | .comma => [',']
  | .null => ['n', 'u', 'l', 'l']
  | .bool true => ['t', 'r', 'u', 'e']
  | .bool false => ['f', 'a', 'l', 's', 'e']
  | .integer value =>
    (if value < 0 then ['-'] else []) ++ Nat.toDigits 10 value.natAbs
  | .decimal => ['-', '0']
  | .string text => '"' :: (text.getD "").toList.flatMap escape ++ ['"']

mutual

def tokens : Json → List Token
  | .null => [.null]
  | .bool value => [.bool value]
  | .integer value => [.integer value]
  | .decimal => [.decimal]
  | .string text => [.string text]
  | .array items => .openBracket :: itemTokens items ++ [.closeBracket]
  | .object members => .openBrace :: memberTokens members ++ [.closeBrace]

/-- The tokens of the items of an array, with commas between the items. -/
def itemTokens : List Json → List Token
  | [] => []
  | [item] => item.tokens
  | item :: rest => item.tokens ++ .comma :: itemTokens rest

/-- The tokens of the members of an object, with commas between the members. -/
def memberTokens : List (Option String × Json) → List Token
  | [] => []
  | [(key, value)] => .string key :: .colon :: value.tokens
  | (key, value) :: rest =>
    .string key :: .colon :: value.tokens ++ .comma :: memberTokens rest

end

/-- The compact text of a value. -/
def text (value : Json) : String := String.ofList (value.tokens.flatMap Token.chars)

end MachineCode.Json
