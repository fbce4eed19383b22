import MachineCode.Json.Lexer

/-!
From JSON tokens to values.
-/

namespace MachineCode.Json

mutual

/-- Reads one value; `fuel` bounds the number of tokens looked at. -/
def readValue : Nat → List Token → Option (Json × List Token)
  | 0, _ => none
  | fuel + 1, tokens =>
    match tokens with
    | .openBracket :: .closeBracket :: rest => some (.array [], rest)
    | .openBracket :: rest => do
      let (items, rest) ← readItems fuel rest
      return (.array items, rest)
    | .openBrace :: .closeBrace :: rest => some (.object [], rest)
    | .openBrace :: rest => do
      let (members, rest) ← readMembers fuel rest
      return (.object members, rest)
    | token :: rest => token.scalar?.map fun value => (value, rest)
    | [] => none

def readItems : Nat → List Token → Option (List Json × List Token)
  | 0, _ => none
  | fuel + 1, tokens => do
    let (item, rest) ← readValue fuel tokens
    match rest with
    | .closeBracket :: rest => return ([item], rest)
    | .comma :: rest =>
      let (items, rest) ← readItems fuel rest
      return (item :: items, rest)
    | _ => none

def readMembers : Nat → List Token → Option (List (Option String × Json) × List Token)
  | 0, _ => none
  | fuel + 1, tokens =>
    match tokens with
    | .string key :: .colon :: rest => do
      let (value, rest) ← readValue fuel rest
      match rest with
      | .closeBrace :: rest => return ([(key, value)], rest)
      | .comma :: rest =>
        let (members, rest) ← readMembers fuel rest
        return ((key, value) :: members, rest)
      | _ => none
    | _ => none

end

/-- The value of a list of tokens that holds nothing else. -/
def ofTokens? (tokens : List Token) : Option Json :=
  match readValue (2 * tokens.length) tokens with
  | some (value, []) => some value
  | _ => none

def parse? (text : String) : Option Json := do ofTokens? (← lex text.toList)

end MachineCode.Json
