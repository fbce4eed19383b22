/-!
Values of JSON texts. Numbers are kept apart by their form, since only plain integers can be read
as fields, and strings may hold halves of surrogate pairs, which no text has.
-/

namespace MachineCode

inductive Json where
  | null
  | bool (value : Bool)
  | integer (value : Int)
  /-- A number with a fraction or an exponent, or the number written as a negative zero. -/
  | decimal
  /-- A string, or `none` if it holds an unpaired surrogate. -/
  | string (text : Option String)
  | array (items : List Json)
  | object (members : List (Option String × Json))
deriving Repr

namespace Json

inductive Token where
  | openBrace
  | closeBrace
  | openBracket
  | closeBracket
  | colon
  | comma
  | null
  | bool (value : Bool)
  | integer (value : Int)
  | decimal
  | string (text : Option String)
deriving DecidableEq, Repr

/-- A value without parts, as a token. -/
def Token.scalar? : Token → Option Json
  | .null => some .null
  | .bool value => some (.bool value)
  | .integer value => some (.integer value)
  | .decimal => some .decimal
  | .string text => some (.string text)
  | _ => none

end Json

end MachineCode
