import MachineCode.Json.Instances
import MachineCode.Proofs.Json.Lexer
import MachineCode.Proofs.Json.Parser

/-!
# JSON forms read back

A form is lawful if it reads back what it writes, and every string that it writes is a text. Then
the text of a value reads back as the value, since printing and parsing lose nothing but unpaired
surrogates and numbers that are no plain integers. Structures and choices are lawful if their parts
are.
-/

namespace MachineCode

open Json

namespace Json

/-- Every string in the value is a text, the keys of objects included. -/
def IsText (json : Json) : Prop := .string none ∉ json.tokens

theorem parse?_text {json : Json} (h : json.IsText) : parse? json.text = some json := by
  rw [parse?, lex_text h]
  exact ofTokens?_tokens json

theorem isText_integer (value : Int) : IsText (.integer value) := by
  simp [IsText, tokens]

theorem isText_string (text : String) : IsText (.string (some text)) := by
  simp [IsText, tokens]

/-- The tokens of members are texts if their keys and values are. -/
theorem not_mem_memberTokens {members : List (Option String × Json)}
    (h : ∀ member ∈ members, member.1 ≠ none ∧ IsText member.2) :
    .string none ∉ memberTokens members := by
  induction members with
  | nil => simp [memberTokens]
  | cons member members ih =>
    rw [List.forall_mem_cons] at h
    obtain ⟨key, value⟩ := member
    have hkey : none ≠ key := h.1.1.symm
    have hvalue : .string none ∉ value.tokens := h.1.2
    by_cases hlast : members = []
    · subst hlast
      simpa [memberTokens, hkey] using hvalue
    · rw [memberTokens_cons key value hlast]
      simpa [hkey] using ⟨hvalue, ih h.2⟩

theorem isText_object {members : List (Option String × Json)}
    (h : ∀ member ∈ members, member.1 ≠ none ∧ IsText member.2) : IsText (.object members) := by
  simpa [IsText, tokens] using not_mem_memberTokens h

theorem isText_record {fields : List (String × Json)} (h : ∀ field ∈ fields, IsText field.2) :
    IsText (record fields) := by
  apply isText_object
  intro member hmember
  obtain ⟨field, hfield, rfl⟩ := List.mem_map.mp hmember
  exact ⟨Option.some_ne_none field.1, h field hfield⟩

theorem isText_unitCase (name : String) : IsText (unitCase name) := isText_string name

theorem isText_fullCase {contents : Json} (h : contents.IsText) (name : String) :
    IsText (fullCase name contents) :=
  isText_record (by simpa using h)

/-! ### Structures and choices -/

section Structures

variable {fields : List (String × Json)}

theorem filter_record (hnames : (fields.map Prod.fst).Nodup) {field : String × Json}
    (hmem : field ∈ fields) :
    (fields.map fun (name, value) => (some name, value)).filter
        (fun member => member.1 = some field.1)
      = [(some field.1, field.2)] := by
  induction fields with
  | nil => cases hmem
  | cons first fields ih =>
    rw [List.map_cons, List.nodup_cons] at hnames
    rcases List.mem_cons.mp hmem with rfl | hmem
    · have hother : ∀ other ∈ fields, other.1 ≠ field.1 := by
        intro other hother heq
        exact hnames.1 (heq ▸ List.mem_map_of_mem hother)
      simpa [List.filter_cons, List.filter_map, List.filter_eq_nil_iff] using hother
    · have hne : first.1 ≠ field.1 := by
        intro heq
        exact hnames.1 (heq ▸ List.mem_map_of_mem hmem)
      simpa [List.filter_cons, hne] using ih hnames.2 hmem

theorem member?_of_mem (hnames : (fields.map Prod.fst).Nodup) {field : String × Json}
    (hmem : field ∈ fields) :
    member? (fields.map fun (name, value) => (some name, value)) field.1 = some field.2 := by
  rw [member?, filter_record hnames hmem]

/-- The fields of a structure are found under their names. -/
theorem fields?_record (hnames : (fields.map Prod.fst).Nodup) :
    (record fields).fields? (fields.map Prod.fst) = some (fields.map Prod.snd) := by
  have hfound {part : List (String × Json)} (hpart : ∀ field ∈ part, field ∈ fields) :
      (part.map Prod.fst).mapM (member? (fields.map fun (name, value) => (some name, value)))
        = some (part.map Prod.snd) := by
    induction part with
    | nil => rfl
    | cons field part ih =>
      rw [List.forall_mem_cons] at hpart
      rw [List.map_cons, List.mapM_cons, member?_of_mem hnames hpart.1, ih hpart.2]
      rfl
  rw [record, fields?, if_pos (by simp)]
  exact hfound fun _ hmem => hmem

end Structures

end Json

/-- The form reads back every value that it writes, and writes no string that is no text. -/
class LawfulJsonForm (α : Type) [JsonForm α] : Prop where
  ofJson?_toJson (value : α) : ofJson? (toJson value) = some value
  isText_toJson (value : α) : (toJson value).IsText

export LawfulJsonForm (ofJson?_toJson isText_toJson)

/-- The only field of a structure is read as a value of its type. -/
theorem field?_record {α : Type} [JsonForm α] [LawfulJsonForm α] (name : String) (value : α) :
    (record [(name, toJson value)]).field? α name = some value := by
  have hfields : (record [(name, toJson value)]).fields? [name] = some [toJson value] :=
    fields?_record (by simp)
  rw [Json.field?, hfields]
  exact ofJson?_toJson value

/-- A case with contents reads back if the contents do. -/
theorem ofJson?_fullCase {α β : Type} [JsonForm β] {read : Json → Option α} {name : String}
    {contents : Json} {value : α} (make : α → β) (hcontents : read contents = some value)
    (hread : ∀ contents, ofJson? (fullCase name contents) = (read contents).bind (some ∘ make)) :
    ofJson? (fullCase name contents) = some (make value) := by
  rw [hread, hcontents]
  rfl

/-! ### Texts and integers -/

instance : LawfulJsonForm String where
  ofJson?_toJson _ := rfl
  isText_toJson := isText_string

theorem read_in_range {α : Type} {low high number : Int} {ofInt : Int → α} {value : α}
    (hlow : low ≤ number) (hhigh : number < high) (hvalue : ofInt number = value) :
    (if low ≤ number ∧ number < high then some (ofInt number) else none) = some value := by
  rw [if_pos ⟨hlow, hhigh⟩, hvalue]

theorem toNat_emod {number size : Nat} (h : number < size) :
    ((number : Int) % size).toNat = number := by
  rw [Int.emod_eq_of_lt (Int.natCast_nonneg number) (Int.ofNat_lt.mpr h), Int.toNat_natCast]

instance : LawfulJsonForm UInt8 where
  ofJson?_toJson value := by
    have hvalue : UInt8.ofInt value.toNat = value :=
      (congrArg UInt8.ofNat (toNat_emod value.toNat_lt)).trans UInt8.ofNat_toNat
    exact read_in_range (Int.natCast_nonneg _) (Int.ofNat_lt.mpr value.toNat_lt) hvalue
  isText_toJson value := isText_integer value.toNat

instance : LawfulJsonForm UInt16 where
  ofJson?_toJson value := by
    have hvalue : UInt16.ofInt value.toNat = value :=
      (congrArg UInt16.ofNat (toNat_emod value.toNat_lt)).trans UInt16.ofNat_toNat
    exact read_in_range (Int.natCast_nonneg _) (Int.ofNat_lt.mpr value.toNat_lt) hvalue
  isText_toJson value := isText_integer value.toNat

instance : LawfulJsonForm UInt32 where
  ofJson?_toJson value := by
    have hvalue : UInt32.ofInt value.toNat = value :=
      (congrArg UInt32.ofNat (toNat_emod value.toNat_lt)).trans UInt32.ofNat_toNat
    exact read_in_range (Int.natCast_nonneg _) (Int.ofNat_lt.mpr value.toNat_lt) hvalue
  isText_toJson value := isText_integer value.toNat

instance : LawfulJsonForm UInt64 where
  ofJson?_toJson value := by
    have hvalue : UInt64.ofInt value.toNat = value :=
      (congrArg UInt64.ofNat (toNat_emod value.toNat_lt)).trans UInt64.ofNat_toNat
    exact read_in_range (Int.natCast_nonneg _) (Int.ofNat_lt.mpr value.toNat_lt) hvalue
  isText_toJson value := isText_integer value.toNat

instance : LawfulJsonForm Int8 where
  ofJson?_toJson value := read_in_range value.le_toInt value.toInt_lt value.ofInt_toInt
  isText_toJson value := isText_integer value.toInt

instance : LawfulJsonForm Int16 where
  ofJson?_toJson value := read_in_range value.le_toInt value.toInt_lt value.ofInt_toInt
  isText_toJson value := isText_integer value.toInt

instance : LawfulJsonForm Int32 where
  ofJson?_toJson value := read_in_range value.le_toInt value.toInt_lt value.ofInt_toInt
  isText_toJson value := isText_integer value.toInt

/-! ### Addresses and ids -/

theorem fields?_address (base index scale disp : Json) :
    (record [("base", base), ("index", index), ("scale", scale), ("disp", disp)]).fields?
      ["base", "index", "scale", "disp"] = some [base, index, scale, disp] :=
  fields?_record (by simp)

instance : LawfulJsonForm AddressExpr where
  ofJson?_toJson expr := by
    change Option.bind ((toJson expr).fields? ["base", "index", "scale", "disp"]) _ = _
    rw [toJson, instJsonFormAddressExpr, fields?_address]
    simp only [Option.bind_some, ofJson?_toJson]
    rfl
  isText_toJson expr := isText_record (by simp [isText_toJson])

instance : LawfulJsonForm RegisterId where
  ofJson?_toJson id := congrArg (Option.map RegisterId.mk) (ofJson?_toJson id.number)
  isText_toJson id := isText_toJson id.number

instance : LawfulJsonForm ClassId where
  ofJson?_toJson id := congrArg (Option.map ClassId.mk) (ofJson?_toJson id.number)
  isText_toJson id := isText_toJson id.number

instance : LawfulJsonForm RegisterRef where
  ofJson?_toJson ref := by
    cases ref with
    | none => rfl
    | name name => exact ofJson?_fullCase RegisterRef.name (ofJson?_toJson name) fun _ => rfl
    | id id => exact ofJson?_fullCase RegisterRef.id (ofJson?_toJson id) fun _ => rfl
  isText_toJson ref := by
    cases ref with
    | none => exact isText_unitCase _
    | name name => exact isText_fullCase (isText_toJson name) _
    | id id => exact isText_fullCase (isText_toJson id) _

instance : LawfulJsonForm Address where
  ofJson?_toJson address := by
    change Option.bind ((toJson address).fields? ["base", "index", "scale", "disp"]) _ = _
    rw [toJson, instJsonFormAddress, fields?_address]
    simp only [Option.bind_some, ofJson?_toJson]
    rfl
  isText_toJson address := isText_record (by simp [isText_toJson])

/-! ### Modes, sizes and operands -/

instance : LawfulJsonForm Mode where
  ofJson?_toJson mode := by cases mode <;> rfl
  isText_toJson mode := isText_unitCase mode.label

instance : LawfulJsonForm SizeHint where
  ofJson?_toJson hint := by cases hint <;> rfl
  isText_toJson hint := isText_unitCase hint.label

instance : LawfulJsonForm DispPolicy where
  ofJson?_toJson policy := by cases policy <;> rfl
  isText_toJson policy := isText_unitCase policy.label

/-- The list of all kinds has every kind, and no two of its labels agree. -/
theorem OperandKind.find?_all (kind : OperandKind) :
    OperandKind.all.find? (fun other => other.label = kind.label) = some kind := by
  cases kind with
  | empty | reg | mem => rfl
  | imm kind => cases kind <;> rfl

instance : LawfulJsonForm OperandKind where
  ofJson?_toJson kind := kind.find?_all
  isText_toJson kind := isText_unitCase kind.label

theorem Immediate.read_toInt (value : Immediate) :
    Immediate.ofJson? value.kind (.integer value.toInt) = some value := by
  cases value with
  | _ number =>
    simp only [Immediate.kind, Immediate.toInt, Immediate.ofJson?]
    exact congrArg (Option.map _) (ofJson?_toJson number)

theorem Operand.ofJson?_mem {contents width : Json}
    (h : contents.fields? ["width"] = some [width]) :
    ofJson? (fullCase "Mem" contents) = (ofJson? width).bind (some ∘ Operand.mem) := by
  change Option.bind (contents.fields? ["width"]) _ = _
  rw [h]
  rfl

instance : LawfulJsonForm Operand where
  ofJson?_toJson operand := by
    cases operand with
    | empty => rfl
    | reg id => exact ofJson?_fullCase Operand.reg (ofJson?_toJson id) fun _ => rfl
    | mem width =>
      have hfields : (record [("width", toJson width)]).fields? ["width"] = some [toJson width] :=
        fields?_record (by simp)
      exact (Operand.ofJson?_mem hfields).trans (by rw [ofJson?_toJson]; rfl)
    | imm value =>
      exact ofJson?_fullCase Operand.imm value.read_toInt fun _ => by cases value <;> rfl
  isText_toJson operand := by
    cases operand with
    | empty => exact isText_unitCase _
    | reg id => exact isText_fullCase (isText_toJson id) _
    | mem width => exact isText_fullCase (isText_record (by simp [isText_toJson])) _
    | imm value => exact isText_fullCase (isText_integer value.toInt) _

/-! ### Errors -/

instance : LawfulJsonForm AddressError where
  ofJson?_toJson error := by
    cases error with
    | displacement text =>
      exact ofJson?_fullCase AddressError.displacement (field?_record "text" text) fun _ => rfl
    | displacementRange text =>
      exact ofJson?_fullCase AddressError.displacementRange (field?_record "text" text) fun _ => rfl
    | scale text =>
      exact ofJson?_fullCase AddressError.scale (field?_record "text" text) fun _ => rfl
    | missingRegister expr =>
      exact ofJson?_fullCase AddressError.missingRegister (field?_record "expr" expr) fun _ => rfl
    | malformed expr =>
      exact ofJson?_fullCase AddressError.malformed (field?_record "expr" expr) fun _ => rfl
  isText_toJson error := isText_fullCase (isText_record (by simp [isText_toJson])) error.label

instance : LawfulJsonForm Misuse where
  ofJson?_toJson misuse := by
    cases misuse with
    | tooManyOperands max =>
      exact ofJson?_fullCase Misuse.tooManyOperands (field?_record "max" max) fun _ => rfl
    | duplicateMemory | duplicateImmediate => rfl
    | invalidScale scale =>
      exact ofJson?_fullCase Misuse.invalidScale (ofJson?_toJson scale) fun _ => rfl
  isText_toJson misuse := by
    cases misuse with
    | tooManyOperands max => exact isText_fullCase (isText_record (by simp [isText_toJson])) _
    | duplicateMemory | duplicateImmediate => exact isText_unitCase _
    | invalidScale scale => exact isText_fullCase (isText_toJson scale) _

instance : LawfulJsonForm RefusalCode where
  ofJson?_toJson code := by
    cases code with
    | other number => exact congrArg (Option.map RefusalCode.other) (ofJson?_toJson number)
    | _ => rfl
  isText_toJson code := by
    cases code with
    | other number => exact isText_fullCase (isText_toJson number) _
    | _ => exact isText_unitCase _

instance : LawfulJsonForm Refusal where
  ofJson?_toJson refusal := congrArg (Option.map Refusal.mk) (field?_record "code" refusal.code)
  isText_toJson refusal := isText_record (by simp [isText_toJson])

theorem EncodeFailure.ofJson?_mnemonicTooLong {contents length max : Json}
    (h : contents.fields? ["len", "max"] = some [length, max]) :
    ofJson? (fullCase "NameTooLong" contents) =
      (ofJson? length).bind fun length =>
        (ofJson? max).bind (some ∘ EncodeFailure.mnemonicTooLong length) := by
  change Option.bind (contents.fields? ["len", "max"]) _ = _
  rw [h]
  rfl

instance : LawfulJsonForm EncodeFailure where
  ofJson?_toJson error := by
    cases error with
    | mnemonicTooLong length max =>
      have hfields : (record [("len", toJson length), ("max", toJson max)]).fields? ["len", "max"]
          = some [toJson length, toJson max] :=
        fields?_record (by simp)
      exact (EncodeFailure.ofJson?_mnemonicTooLong hfields).trans
        (by simp only [ofJson?_toJson]; rfl)
    | operandCount count =>
      exact ofJson?_fullCase EncodeFailure.operandCount (ofJson?_toJson count) fun _ => rfl
    | misused misuse =>
      exact ofJson?_fullCase EncodeFailure.misused (ofJson?_toJson misuse) fun _ => rfl
    | unrepresentable => rfl
    | refused refusal =>
      exact ofJson?_fullCase EncodeFailure.refused (ofJson?_toJson refusal) fun _ => rfl
  isText_toJson error := by
    cases error with
    | mnemonicTooLong length max =>
      exact isText_fullCase (isText_record (by simp [isText_toJson])) _
    | operandCount count => exact isText_fullCase (isText_toJson count) _
    | misused misuse => exact isText_fullCase (isText_toJson misuse) _
    | unrepresentable => exact isText_unitCase _
    | refused refusal => exact isText_fullCase (isText_toJson refusal) _

/-! ### Round trips -/

namespace Json

theorem roundTrips_of_lawful (α : Type) [JsonForm α] [LawfulJsonForm α] : RoundTrips α := by
  have hform (value : α) : parse? (write value) = some (toJson value) :=
    parse?_text (isText_toJson value)
  have hread (value : α) : read? α (write value) = some value := by
    rw [read?, hform]
    exact ofJson?_toJson value
  exact ⟨hform, hread, fun _ value _ => hread value⟩

/-- **Reading undoes writing.** The text of an address, of a register reference, of an operand, of
a mode, of an id or of an error reads back as the value. So a text that is read as a value may be
replaced by the text of that value. -/
theorem roundTrips_forms :
    RoundTrips AddressExpr ∧ RoundTrips Address ∧ RoundTrips RegisterRef ∧
      RoundTrips Operand ∧ RoundTrips OperandKind ∧
      RoundTrips Mode ∧ RoundTrips SizeHint ∧ RoundTrips DispPolicy ∧
      RoundTrips RegisterId ∧ RoundTrips ClassId ∧
      RoundTrips AddressError ∧ RoundTrips Misuse ∧ RoundTrips RefusalCode ∧
      RoundTrips Refusal ∧ RoundTrips EncodeFailure := by
  refine ⟨?_, ?_, ?_, ?_, ?_, ?_, ?_, ?_, ?_, ?_, ?_, ?_, ?_, ?_, ?_⟩ <;>
    exact roundTrips_of_lawful _

example : (read? SizeHint " \x7b\"Bits8\" : null\x7d").map write = some "\"Bits8\"" := by
  decide +kernel

end Json

end MachineCode
