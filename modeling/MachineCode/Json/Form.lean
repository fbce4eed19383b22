import MachineCode.Json.Parser
import MachineCode.Json.Printer

/-!
JSON forms of types. A structure is an object of its fields. A case of a choice is its name alone,
or an object that has the name as its one key. Reading accepts more than is written: fields in any
order beside unknown ones, and a list of the fields in place of the object.
-/

namespace MachineCode

class JsonForm (α : Type) where
  toJson : α → Json
  ofJson? : Json → Option α

export JsonForm (toJson ofJson?)

namespace Json

def read? (α : Type) [JsonForm α] (text : String) : Option α := do ofJson? (← parse? text)

def write {α : Type} [JsonForm α] (value : α) : String := (toJson value).text

/-- What is written is the JSON text of the form of the value, and reads back as the value. So does
what is written for a value that was itself read from some text. -/
structure RoundTrips (α : Type) [JsonForm α] : Prop where
  form (value : α) : parse? (write value) = some (toJson value)
  read (value : α) : read? α (write value) = some value
  reread (text : String) (value : α) (h : read? α text = some value) :
    read? α (write value) = some value

def record (fields : List (String × Json)) : Json :=
  .object (fields.map fun (name, value) => (some name, value))

def member? (members : List (Option String × Json)) (name : String) : Option Json :=
  match members.filter fun member => member.1 = some name with
  | [(_, value)] => some value
  | _ => none

def fields? (names : List String) : Json → Option (List Json)
  | .array items => if items.length = names.length then some items else none
  | .object members =>
    if members.all fun member => member.1.isSome then names.mapM (member? members) else none
  | _ => none

def unitCase (name : String) : Json := .string (some name)

def fullCase (name : String) (contents : Json) : Json := record [(name, contents)]

/-- The name of a case and its contents, which are absent where the name stands alone. -/
def case? : Json → Option (String × Option Json)
  | .string (some name) => some (name, none)
  | .object [(some name, contents)] => some (name, some contents)
  | _ => none

/-- A case without contents is written as its name, and may be read with null as its contents. -/
def isUnit : Option Json → Bool
  | none | some .null => true
  | _ => false

/-- The one of a list of cases without contents that has a label. -/
def unitCase? {α : Type} (all : List α) (label : α → String) (json : Json) : Option α := do
  let (name, contents) ← json.case?
  if isUnit contents then all.find? fun value => label value = name else none

end Json

open Json

instance : JsonForm String where
  toJson value := .string (some value)
  ofJson?
    | .string text => text
    | _ => none

instance : JsonForm UInt8 where
  toJson value := .integer value.toNat
  ofJson?
    | .integer value => if 0 ≤ value ∧ value < UInt8.size then some (.ofInt value) else none
    | _ => none

instance : JsonForm UInt16 where
  toJson value := .integer value.toNat
  ofJson?
    | .integer value => if 0 ≤ value ∧ value < UInt16.size then some (.ofInt value) else none
    | _ => none

instance : JsonForm UInt32 where
  toJson value := .integer value.toNat
  ofJson?
    | .integer value => if 0 ≤ value ∧ value < UInt32.size then some (.ofInt value) else none
    | _ => none

instance : JsonForm UInt64 where
  toJson value := .integer value.toNat
  ofJson?
    | .integer value => if 0 ≤ value ∧ value < UInt64.size then some (.ofInt value) else none
    | _ => none

instance : JsonForm Int8 where
  toJson value := .integer value.toInt
  ofJson?
    | .integer value => if -0x80 ≤ value ∧ value < 0x80 then some (.ofInt value) else none
    | _ => none

instance : JsonForm Int16 where
  toJson value := .integer value.toInt
  ofJson?
    | .integer value => if -0x8000 ≤ value ∧ value < 0x8000 then some (.ofInt value) else none
    | _ => none

instance : JsonForm Int32 where
  toJson value := .integer value.toInt
  ofJson?
    | .integer value =>
      if -0x80000000 ≤ value ∧ value < 0x80000000 then some (.ofInt value) else none
    | _ => none

end MachineCode
