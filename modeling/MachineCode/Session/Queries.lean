import MachineCode.Session.Lexicon

/-!
Runs of look-ups, and what the tables of an engine say to each question without a memory.
-/

namespace MachineCode

/-- The cache that is left when a list of names has been looked up. -/
def KnownNames.askAll {Id : Type} (cache : KnownNames Id) (isValid : Id → Bool)
    (table : String → Id) (names : List String) : KnownNames Id :=
  names.foldl (fun cache name => (cache.ask isValid table name).cache) cache

namespace Query

def registerSpelling? : Query → Option String
  | .register name => some name
  | _ => none

def classSpelling? : Query → Option String
  | .cls name => some name
  | _ => none

/-- What the tables answer. -/
def direct (engine : Engine) : Query → QueryAnswer
  | .register name => .register (engine.registers.find name)
  | .cls name => .cls (engine.classes.find name)
  | .registerName id => .registerName (engine.registers.name? id)

/-- The question looks up a name that the tables know. -/
def isKnown (engine : Engine) : Query → Bool
  | .register name => (engine.registers.find name).isValid
  | .cls name => (engine.classes.find name).isValid
  | .registerName _ => false

/-- The record of looking a name up in the tables. Canonical names are read without one. -/
def missEvents (engine : Engine) : Query → List Event
  | .register name => [.registerMiss name (engine.registers.find name)]
  | .cls name => [.classMiss name (engine.classes.find name)]
  | .registerName _ => []

end Query

namespace Lexicon

/-- The lexicon that is left when a list of questions has been asked. -/
def after (engine : Engine) (lex : Lexicon) (queries : List Query) : Lexicon :=
  queries.foldl (fun lex query => (lex.answer engine query).lexicon) lex

/-- The register names as they are found through a lexicon. -/
def registerTable (engine : Engine) (lex : Lexicon) : NameTable RegisterId where
  find name := (lex.register engine name).value
  name? := engine.registers.name?

/-- The mnemonics as they are found through a lexicon. -/
def classTable (engine : Engine) (lex : Lexicon) : NameTable ClassId where
  find name := (lex.cls engine name).value
  name? := engine.classes.name?

end Lexicon

end MachineCode
