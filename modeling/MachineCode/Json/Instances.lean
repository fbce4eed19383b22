import MachineCode.Inspect.Labels
import MachineCode.Json.Form

/-!
The JSON forms of addresses, operands, modes, ids and errors.
-/

namespace MachineCode

open Json

instance : JsonForm AddressExpr where
  toJson expr :=
    record [("base", toJson expr.base), ("index", toJson expr.index), ("scale", toJson expr.scale),
      ("disp", toJson expr.disp)]
  ofJson? json := do
    match ← json.fields? ["base", "index", "scale", "disp"] with
    | [base, index, scale, disp] =>
      return {
        base := ← ofJson? base
        index := ← ofJson? index
        scale := ← ofJson? scale
        disp := ← ofJson? disp }
    | _ => none

instance : JsonForm RegisterId where
  toJson id := toJson id.number
  ofJson? json := (ofJson? json).map RegisterId.mk

instance : JsonForm ClassId where
  toJson id := toJson id.number
  ofJson? json := (ofJson? json).map ClassId.mk

instance : JsonForm RegisterRef where
  toJson
    | .none => unitCase "None"
    | .name name => fullCase "Name" (toJson name)
    | .id id => fullCase "Id" (toJson id)
  ofJson? json := do
    match ← json.case? with
    | ("None", contents) => if isUnit contents then return .none else none
    | ("Name", some contents) => return .name (← ofJson? contents)
    | ("Id", some contents) => return .id (← ofJson? contents)
    | _ => none

instance : JsonForm Address where
  toJson address :=
    record [("base", toJson address.base), ("index", toJson address.index),
      ("scale", toJson address.scale), ("disp", toJson address.disp)]
  ofJson? json := do
    match ← json.fields? ["base", "index", "scale", "disp"] with
    | [base, index, scale, disp] =>
      return {
        base := ← ofJson? base
        index := ← ofJson? index
        scale := ← ofJson? scale
        disp := ← ofJson? disp }
    | _ => none

instance : JsonForm Mode where
  toJson mode := unitCase mode.label
  ofJson? := unitCase? [.mode32, .mode64] Mode.label

instance : JsonForm SizeHint where
  toJson hint := unitCase hint.label
  ofJson? := unitCase? [.unset, .bits8, .bits16, .bits32, .bits64] SizeHint.label

instance : JsonForm DispPolicy where
  toJson policy := unitCase policy.label
  ofJson? := unitCase? [.auto, .bits8, .bits32] DispPolicy.label

def ImmediateKind.all : List ImmediateKind :=
  [.uint8, .uint32, .uint64, .int8, .int16, .int32, .rel8, .rel16, .rel32]

def OperandKind.all : List OperandKind := [.empty, .reg, .mem] ++ ImmediateKind.all.map .imm

instance : JsonForm OperandKind where
  toJson kind := unitCase kind.label
  ofJson? := unitCase? OperandKind.all OperandKind.label

def Immediate.toJson (value : Immediate) : Json :=
  fullCase value.kind.label (.integer value.toInt)

/-- The value of a kind that a JSON number stands for. -/
def Immediate.ofJson? (kind : ImmediateKind) (json : Json) : Option Immediate :=
  match kind with
  | .uint8 => (JsonForm.ofJson? json).map .uint8
  | .uint32 => (JsonForm.ofJson? json).map .uint32
  | .uint64 => (JsonForm.ofJson? json).map .uint64
  | .int8 => (JsonForm.ofJson? json).map .int8
  | .int16 => (JsonForm.ofJson? json).map .int16
  | .int32 => (JsonForm.ofJson? json).map .int32
  | .rel8 => (JsonForm.ofJson? json).map .rel8
  | .rel16 => (JsonForm.ofJson? json).map .rel16
  | .rel32 => (JsonForm.ofJson? json).map .rel32

instance : JsonForm Operand where
  toJson
    | .empty => unitCase "Empty"
    | .reg id => fullCase "Reg" (toJson id)
    | .mem width => fullCase "Mem" (record [("width", toJson width)])
    | .imm value => value.toJson
  ofJson? json := do
    let (name, contents) ← json.case?
    let kind ← OperandKind.all.find? fun kind => kind.label = name
    match kind, contents with
    | .empty, contents => if isUnit contents then return .empty else none
    | .reg, some contents => return .reg (← ofJson? contents)
    | .mem, some contents =>
      match ← contents.fields? ["width"] with
      | [width] => return .mem (← ofJson? width)
      | _ => none
    | .imm kind, some contents => return .imm (← Immediate.ofJson? kind contents)
    | _, none => none

/-- The one text that each case of an address error holds. -/
def AddressError.textField : AddressError → String × String
  | .displacement text => ("text", text)
  | .displacementRange text => ("text", text)
  | .scale text => ("text", text)
  | .missingRegister expr => ("expr", expr)
  | .malformed expr => ("expr", expr)

/-- The only field of a structure that has one. -/
def Json.field? (α : Type) [JsonForm α] (name : String) (json : Json) : Option α := do
  match ← json.fields? [name] with
  | [value] => ofJson? value
  | _ => none

instance : JsonForm AddressError where
  toJson error :=
    fullCase error.label (record [(error.textField.1, toJson error.textField.2)])
  ofJson? json := do
    let (name, some contents) ← json.case? | none
    match name with
    | "Displacement" => return .displacement (← contents.field? String "text")
    | "DisplacementRange" => return .displacementRange (← contents.field? String "text")
    | "Scale" => return .scale (← contents.field? String "text")
    | "MissingRegister" => return .missingRegister (← contents.field? String "expr")
    | "Malformed" => return .malformed (← contents.field? String "expr")
    | _ => none

instance : JsonForm Misuse where
  toJson misuse :=
    match misuse with
    | .tooManyOperands max => fullCase misuse.label (record [("max", toJson max)])
    | .duplicateMemory | .duplicateImmediate => unitCase misuse.label
    | .invalidScale scale => fullCase misuse.label (toJson scale)
  ofJson? json := do
    match ← json.case? with
    | ("TooManyOperands", some contents) =>
      return .tooManyOperands (← contents.field? UInt64 "max")
    | ("DuplicateMemory", contents) => if isUnit contents then return .duplicateMemory else none
    | ("DuplicateImmediate", contents) =>
      if isUnit contents then return .duplicateImmediate else none
    | ("InvalidScale", some contents) => return .invalidScale (← ofJson? contents)
    | _ => none

/-- The error codes without a number. -/
def RefusalCode.plain : List RefusalCode :=
  [.generalError, .bufferTooShort, .invalidMode, .badRegister, .badClass, .badOperandCount,
    .operandSizeMismatch, .noMatchingForm, .badDisplacement, .badScale, .highByteWithRex]

instance : JsonForm RefusalCode where
  toJson code :=
    match code with
    | .other number => fullCase code.label (toJson number)
    | _ => unitCase code.label
  ofJson? json :=
    match json.case? with
    | some ("Other", some contents) => (ofJson? contents).map .other
    | _ => unitCase? RefusalCode.plain RefusalCode.label json

instance : JsonForm Refusal where
  toJson refusal := record [("code", toJson refusal.code)]
  ofJson? json := (json.field? RefusalCode "code").map Refusal.mk

instance : JsonForm EncodeFailure where
  toJson error :=
    match error with
    | .mnemonicTooLong length max =>
      fullCase error.label (record [("len", toJson length), ("max", toJson max)])
    | .operandCount count => fullCase error.label (toJson count)
    | .misused misuse => fullCase error.label (toJson misuse)
    | .unrepresentable => unitCase error.label
    | .refused refusal => fullCase error.label (toJson refusal)
  ofJson? json := do
    match ← json.case? with
    | ("NameTooLong", some contents) =>
      match ← contents.fields? ["len", "max"] with
      | [length, max] => return .mnemonicTooLong (← ofJson? length) (← ofJson? max)
      | _ => none
    | ("OperandCountInvalid", some contents) => return .operandCount (← ofJson? contents)
    | ("Usage", some contents) => return .misused (← ofJson? contents)
    | ("ConversionFailed", contents) => if isUnit contents then return .unrepresentable else none
    | ("Engine", some contents) => return .refused (← ofJson? contents)
    | _ => none

end MachineCode
