import MachineCode.Session.Event

/-!
Look-ups of names with a memory. A name that the engine knows is asked for once and then answered
from the cache; an unknown name is asked for every time.
-/

namespace MachineCode

/-- The known names that were asked for, each under the spelling in which it was asked. -/
structure KnownNames (Id : Type) where
  entries : List (String × Id) := []
deriving DecidableEq, Repr

/-- The answer to a look-up, with the cache that results. -/
structure Lookup (Id : Type) where
  id : Id
  cache : KnownNames Id
  /-- The cache had no entry. -/
  missed : Bool

namespace KnownNames

variable {Id : Type}

def find? (cache : KnownNames Id) (name : String) : Option Id := cache.entries.lookup name

def insert (cache : KnownNames Id) (name : String) (id : Id) : KnownNames Id :=
  ⟨(name, id) :: cache.entries⟩

def size (cache : KnownNames Id) : Nat := cache.entries.length

/-- Looks a name up in the cache and else in the table, and remembers a valid answer. -/
def ask (cache : KnownNames Id) (isValid : Id → Bool) (table : String → Id) (name : String) :
    Lookup Id :=
  match cache.find? name with
  | some id => { id, cache, missed := false }
  | none =>
    let id := table name
    { id, cache := if isValid id then cache.insert name id else cache, missed := true }

end KnownNames

/-- The names an encoder remembers; registers and mnemonics are kept apart. -/
structure Lexicon where
  registers : KnownNames RegisterId := {}
  classes : KnownNames ClassId := {}
deriving DecidableEq, Repr

/-- The result of a look-up, with the lexicon and the events that it leaves. -/
structure Resolution (α : Type) where
  value : α
  lexicon : Lexicon
  events : List Event

namespace Lexicon

def register (engine : Engine) (lex : Lexicon) (name : String) : Resolution RegisterId :=
  let answer := lex.registers.ask RegisterId.isValid engine.registers.find name
  { value := answer.id
    lexicon := { lex with registers := answer.cache }
    events := if answer.missed then [.registerMiss name answer.id] else [] }

def cls (engine : Engine) (lex : Lexicon) (name : String) : Resolution ClassId :=
  let answer := lex.classes.ask ClassId.isValid engine.classes.find name
  { value := answer.id
    lexicon := { lex with classes := answer.cache }
    events := if answer.missed then [.classMiss name answer.id] else [] }

/-- The id of a register reference, where no register is the invalid id. -/
def reference (engine : Engine) (lex : Lexicon) : RegisterRef → Resolution RegisterId
  | .none => ⟨.invalid, lex, []⟩
  | .name name => lex.register engine name
  | .id id => ⟨id, lex, []⟩

end Lexicon

/-- A question to a lexicon. -/
inductive Query where
  | register (name : String)
  | cls (name : String)
  /-- The canonical name of a register, which no lexicon is needed for. -/
  | registerName (id : RegisterId)
deriving DecidableEq, Repr

inductive QueryAnswer where
  | register (id : RegisterId)
  | cls (id : ClassId)
  | registerName (name : Option String)
deriving DecidableEq, Repr

namespace Lexicon

def answer (engine : Engine) (lex : Lexicon) : Query → Resolution QueryAnswer
  | .register name =>
    let found := lex.register engine name
    { found with value := .register found.value }
  | .cls name =>
    let found := lex.cls engine name
    { found with value := .cls found.value }
  | .registerName id => ⟨.registerName (engine.registers.name? id), lex, []⟩

/-- The answers to a list of questions, each asked of the lexicon that the one before it left. -/
def answers (engine : Engine) (lex : Lexicon) : List Query → List (Resolution QueryAnswer)
  | [] => []
  | query :: rest =>
    let found := lex.answer engine query
    found :: found.lexicon.answers engine rest

end Lexicon

end MachineCode
