import Mathlib.Data.List.Forall2
import MachineCode.Proofs.Address.Literals
import MachineCode.Proofs.Address.Separators
import MachineCode.Proofs.Request.Admission

/-!
# The text of a request

No operand shows a comma, so the commas of a text are those between its operands. The first letters of
an operand then show its kind, and a bracket or parenthesis ends the part that shows the width of a memory
operand or the kind of an immediate. So two requests with one mnemonic and one text have the same
operands.
-/

namespace MachineCode

/-! ### Numerals -/

theorem Hex.digits_injective : Function.Injective Hex.digits := by
  intro first second h
  have hfirst := (AddressExpr.isNumeral_digits first).digitsValue_eq (Nat.le_refl 16)
  have hsecond := (AddressExpr.isNumeral_digits second).digitsValue_eq (Nat.le_refl 16)
  rw [← hfirst, h, hsecond]

theorem Hex.comma_not_mem_digits (value : Nat) : ',' ∉ Hex.digits value := by
  intro hmem
  obtain ⟨-, hdigits⟩ := AddressExpr.isNumeral_sixteen_iff.mp (AddressExpr.isNumeral_digits value) |>.1
  exact absurd (hdigits ',' hmem) (by decide)

theorem toDigits_injective : Function.Injective (Nat.toDigits 10) := by
  intro first second h
  calc
    first = Nat.ofDigitChars 10 (Nat.toDigits 10 first) 0 := Nat.ofDigitChars_ten_toDigits.symm
    _ = Nat.ofDigitChars 10 (Nat.toDigits 10 second) 0 := by rw [h]
    _ = second := Nat.ofDigitChars_ten_toDigits

theorem not_mem_toDigits {c : Char} (hc : ¬ c.isDigit) (value : Nat) : c ∉ Nat.toDigits 10 value := by
  intro hmem
  exact hc (Nat.isDigit_of_mem_toDigits (by decide) (by decide) hmem)

theorem toList_toString (value : UInt16) : (toString value).toList = Nat.toDigits 10 value.toNat :=
  String.toList_ofList

/-! ### Joined texts -/

theorem eq_of_append_separator {sep : Char} {first second before after : List Char}
    (hfirst : sep ∉ first) (hsecond : sep ∉ second)
    (h : first ++ sep :: before = second ++ sep :: after) : first = second ∧ before = after := by
  have hsplit := AddressExpr.splitFirst_append hfirst before
  rw [h, AddressExpr.splitFirst_append hsecond after] at hsplit
  cases hsplit
  exact ⟨rfl, rfl⟩

/-- The words behind the first one, as they stand in a joined text. -/
def trailing (words : List String) : List Char := words.flatMap fun word => ',' :: ' ' :: word.toList

theorem toList_intercalate_cons (word : String) (words : List String) :
    (", ".intercalate (word :: words)).toList = word.toList ++ trailing words := by
  induction words generalizing word with
  | nil => simp [trailing]
  | cons next words ih =>
    rw [String.intercalate_cons_cons, String.toList_append, String.toList_append, ih,
      List.append_assoc]
    rfl

/-- The induction is on the words behind the first. A text that ends where the other has a comma
would have that comma in its last word. -/
theorem eq_of_append_trailing {first second : List Char} {words others : List String}
    (hfirst : ',' ∉ first) (hsecond : ',' ∉ second) (hwords : ∀ word ∈ words, ',' ∉ word.toList)
    (hothers : ∀ word ∈ others, ',' ∉ word.toList)
    (h : first ++ trailing words = second ++ trailing others) :
    first = second ∧ words = others := by
  induction words generalizing first second others with
  | nil =>
    cases others with
    | nil =>
      rw [List.append_left_inj] at h
      exact ⟨h, rfl⟩
    | cons other others =>
      rw [trailing, List.flatMap_nil, List.append_nil] at h
      exact absurd (h ▸ by simp [trailing]) hfirst
  | cons word words ih =>
    cases others with
    | nil =>
      rw [trailing, trailing, List.flatMap_nil, List.append_nil] at h
      exact absurd (h ▸ by simp) hsecond
    | cons other others =>
      obtain ⟨hword, hwords⟩ := List.forall_mem_cons.mp hwords
      obtain ⟨hother, hothers⟩ := List.forall_mem_cons.mp hothers
      obtain ⟨hfront, hrest⟩ := eq_of_append_separator hfirst hsecond h
      obtain ⟨hsame, hbehind⟩ := ih hword hother hwords hothers (List.cons.inj hrest).2
      exact ⟨hfront, by rw [String.toList_inj.mp hsame, hbehind]⟩

/-- Words as they stand behind a mnemonic. -/
def listing : List String → List Char
  | [] => []
  | word :: words => ' ' :: (word.toList ++ trailing words)

theorem eq_of_listing_eq {words others : List String} (hwords : ∀ word ∈ words, ',' ∉ word.toList)
    (hothers : ∀ word ∈ others, ',' ∉ word.toList) (h : listing words = listing others) :
    words = others := by
  cases words with
  | nil =>
    cases others with
    | nil => rfl
    | cons other others => cases h
  | cons word words =>
    cases others with
    | nil => cases h
    | cons other others =>
      obtain ⟨hword, hwords⟩ := List.forall_mem_cons.mp hwords
      obtain ⟨hother, hothers⟩ := List.forall_mem_cons.mp hothers
      obtain ⟨hsame, hrest⟩ :=
        eq_of_append_trailing hword hother hwords hothers (List.cons.inj h).2
      rw [String.toList_inj.mp hsame, hrest]

/-! ### Immediates -/

theorem ImmediateKind.name_injective : Function.Injective ImmediateKind.name := by
  intro left right h
  cases left <;> cases right <;> first | rfl | exact absurd h (by decide)

namespace Immediate

variable {left right : Immediate}

theorem eq_of_toInt_eq (hkind : left.kind = right.kind) (hvalue : left.toInt = right.toInt) :
    left = right := by
  cases left <;> cases right <;> cases hkind
  all_goals
    simp only [toInt, Int.natCast_inj, UInt8.toNat_inj, UInt32.toNat_inj, UInt64.toNat_inj,
      Int8.toInt_inj, Int16.toInt_inj, Int32.toInt_inj] at hvalue
    rw [hvalue]

def signText (value : Immediate) : List Char :=
  if value.toInt < 0 then ['-'] else if value.kind.isRelative then ['+'] else []

theorem toList_text (value : Immediate) :
    value.text.toList = value.kind.name.toList
      ++ '(' :: (value.signText ++ '0' :: 'x' :: (Hex.digits value.toInt.natAbs ++ [')'])) := by
  rw [text, signText]
  split_ifs <;> simp [Hex.numeral]

theorem head?_signText_eq_minus_iff (value : Immediate) (rest : List Char) :
    (value.signText ++ '0' :: rest).head? = some '-' ↔ value.toInt < 0 := by
  rw [signText]
  split_ifs with hsign <;> simp [hsign]

/-- The sign and the magnitude are the value. -/
theorem toInt_eq_of_signText_eq (hkind : left.kind = right.kind)
    (h : left.signText ++ '0' :: 'x' :: (Hex.digits left.toInt.natAbs ++ [')'])
      = right.signText ++ '0' :: 'x' :: (Hex.digits right.toInt.natAbs ++ [')'])) :
    left.toInt = right.toInt := by
  have hnegative : left.toInt < 0 ↔ right.toInt < 0 := by
    rw [← head?_signText_eq_minus_iff left, h, head?_signText_eq_minus_iff]
  have hsign : left.signText = right.signText := by
    simp only [signText, hnegative, hkind]
  have hmagnitude : left.toInt.natAbs = right.toInt.natAbs := by
    rw [hsign, List.append_right_inj, List.cons_inj_right, List.cons_inj_right,
      List.append_left_inj] at h
    exact Hex.digits_injective h
  omega

theorem eq_of_text_eq (h : left.text = right.text) : left = right := by
  have hname (kind : ImmediateKind) : '(' ∉ kind.name.toList := by
    cases kind <;> decide
  rw [← String.toList_inj, toList_text, toList_text] at h
  obtain ⟨hkinds, hvalues⟩ := eq_of_append_separator (hname left.kind) (hname right.kind) h
  have hkind : left.kind = right.kind := ImmediateKind.name_injective (String.toList_inj.mp hkinds)
  exact eq_of_toInt_eq hkind (toInt_eq_of_signText_eq hkind hvalues)

theorem comma_not_mem_text (value : Immediate) : ',' ∉ value.text.toList := by
  have hname : ',' ∉ value.kind.name.toList := by
    cases value.kind <;> decide
  have hsign : ',' ∉ value.signText := by
    rw [signText]
    split_ifs <;> decide
  have hdigits : ',' ∉ Hex.digits value.toInt.natAbs := Hex.comma_not_mem_digits _
  rw [toList_text]
  simp [hname, hsign, hdigits]

end Immediate

/-! ### Registers -/

/-- Every known register has a canonical name of its own, in capitals and digits. -/
structure Engine.NamesApart (engine : Engine) : Prop where
  isUpper_or_isDigit {id : RegisterId} {name : String} (h : engine.registers.name? id = some name) :
    ∀ c ∈ name.toList, c.isUpper ∨ c.isDigit
  eq_of_name? {id other : RegisterId} {name : String} (h : engine.registers.name? id = some name)
    (hother : engine.registers.name? other = some name) : id = other

def Engine.registerText (engine : Engine) (id : RegisterId) : String :=
  (engine.registers.name? id).getD (Operand.reg id).text

theorem Operand.toList_text_reg (id : RegisterId) :
    (Operand.reg id).text.toList
      = '<' :: 'r' :: 'e' :: 'g' :: '#' :: (Nat.toDigits 10 id.number.toNat ++ ['>']) := by
  rw [text, String.toList_append, String.toList_append, toList_toString]
  rfl

namespace Engine.NamesApart

variable {engine : Engine} (hengine : engine.NamesApart)
include hengine

theorem not_mem_name {id : RegisterId} {name : String} {c : Char}
    (h : engine.registers.name? id = some name) (hupper : ¬ c.isUpper) (hdigit : ¬ c.isDigit) :
    c ∉ name.toList := by
  intro hmem
  rcases hengine.isUpper_or_isDigit h c hmem with hc | hc
  · exact hupper hc
  · exact hdigit hc

theorem registerText_ne {id other : RegisterId} {name : String}
    (h : engine.registers.name? id = some name) : name ≠ (Operand.reg other).text := by
  intro hsame
  apply hengine.not_mem_name h (c := '<') (by decide) (by decide)
  rw [hsame, Operand.toList_text_reg]
  exact List.mem_cons_self

theorem registerText_injective : Function.Injective engine.registerText := by
  intro id other h
  rw [registerText, registerText] at h
  cases hid : engine.registers.name? id with
  | none =>
    cases hother : engine.registers.name? other with
    | none =>
      rw [hid, hother, Option.getD_none, Option.getD_none, ← String.toList_inj,
        Operand.toList_text_reg, Operand.toList_text_reg] at h
      simp only [List.cons.injEq, true_and, List.append_left_inj] at h
      exact congrArg RegisterId.mk (UInt16.toNat_inj.mp (toDigits_injective h))
    | some name =>
      rw [hid, hother] at h
      exact absurd h.symm (hengine.registerText_ne hother)
  | some name =>
    cases hother : engine.registers.name? other with
    | none =>
      rw [hid, hother] at h
      exact absurd h (hengine.registerText_ne hid)
    | some same =>
      rw [hid, hother] at h
      obtain rfl : name = same := h
      exact hengine.eq_of_name? hid hother

theorem comma_not_mem_registerText (id : RegisterId) : ',' ∉ (engine.registerText id).toList := by
  rw [registerText]
  cases hid : engine.registers.name? id with
  | none =>
    have hnumber : ',' ∉ Nat.toDigits 10 id.number.toNat := not_mem_toDigits (by decide) _
    rw [Option.getD_none, Operand.toList_text_reg]
    simp [hnumber]
  | some name => exact hengine.not_mem_name hid (by decide) (by decide)

theorem comma_not_mem_text {ref : RegisterRef} (href : ref.IsAlphanumeric) :
    ',' ∉ (ref.text engine).toList := by
  cases href with
  | none => exact List.not_mem_nil
  | id known => exact hengine.comma_not_mem_registerText known
  | name hgiven =>
    intro hmem
    exact absurd (hgiven ',' hmem) (by decide)

end Engine.NamesApart

/-! ### Addresses -/

namespace AddressExpr

theorem comma_not_mem_dispText (disp : Int32) : ',' ∉ (dispText disp).toList := by
  have hnumeral : ',' ∉ (Hex.numeral disp.toInt.natAbs).toList := by
    simp [Hex.numeral, Hex.comma_not_mem_digits]
  rw [dispText]
  split_ifs <;> simp [hnumeral]

theorem comma_not_mem_render {expr : AddressExpr} (hbase : ',' ∉ expr.base.toList)
    (hindex : ',' ∉ expr.index.toList) : ',' ∉ expr.render.toList := by
  have hscale (scale : Nat) : ',' ∉ Nat.toDigits 10 scale := not_mem_toDigits (by decide) scale
  have hregisters : ',' ∉ expr.registersText.toList := by
    rw [registersText]
    split_ifs <;> simp [hbase, hindex, hscale]
  rw [render, String.toList_append, List.mem_append, not_or]
  exact ⟨hregisters, comma_not_mem_dispText expr.disp⟩

end AddressExpr

/-! ### Operands -/

/-- The four ways to write an operand. -/
inductive OperandForm where
  | empty
  | reg
  | mem
  | imm
deriving DecidableEq

namespace OperandForm

def ofOperand : Operand → OperandForm
  | .empty => .empty
  | .reg _ => .reg
  | .mem _ => .mem
  | .imm _ => .imm

/-- The form that the first letters show. A register without a name is written as `<reg#9>`. -/
def ofText (text : List Char) : OperandForm :=
  match text.head? with
  | some '<' => if text[1]? = some 'e' then .empty else .reg
  | some 'm' => .mem
  | some 'u' | some 'i' | some 'r' => .imm
  | _ => .reg

theorem ofText_of_capitals {text : List Char} (h : ∀ c ∈ text, c.isUpper ∨ c.isDigit) :
    ofText text = .reg := by
  have hhead (c : Char) (hc : text.head? = some c) : c.isUpper ∨ c.isDigit :=
    h c (List.mem_of_head? hc)
  rw [ofText]
  split
  case h_6 => rfl
  -- No letter that `ofText` looks for is a capital or a digit.
  all_goals exact absurd (hhead _ ‹_›) (by decide)

end OperandForm

section Texts

variable {engine : Engine} {left right : Request} {op other : Operand}

theorem toList_operandText_mem (engine : Engine) (req : Request) (width : UInt16) :
    (req.operandText engine (.mem width)).toList
      = 'm' :: 'e' :: 'm' :: (Nat.toDigits 10 width.toNat
        ++ '[' :: ((req.address.toExpr engine).render.toList ++ [']'])) := by
  simp only [Request.operandText, String.toList_append, toList_toString, List.append_assoc]
  rfl

theorem ofText_operandText (hengine : engine.NamesApart) (req : Request) (op : Operand) :
    OperandForm.ofText (req.operandText engine op).toList = .ofOperand op := by
  cases op with
  | empty =>
    change OperandForm.ofText "<empty>".toList = .empty
    decide
  | mem width =>
    rw [toList_operandText_mem]
    rfl
  | imm value =>
    change OperandForm.ofText value.text.toList = .imm
    rw [Immediate.toList_text]
    cases value.kind <;> rfl
  | reg id =>
    change OperandForm.ofText (engine.registerText id).toList = .reg
    rw [Engine.registerText]
    cases hid : engine.registers.name? id with
    | none =>
      rw [Option.getD_none, Operand.toList_text_reg]
      rfl
    | some name => exact OperandForm.ofText_of_capitals (hengine.isUpper_or_isDigit hid)

theorem operandText_mem_eq_iff {width same : UInt16} :
    left.operandText engine (.mem width) = right.operandText engine (.mem same) ↔
      width = same
        ∧ (left.address.toExpr engine).render = (right.address.toExpr engine).render := by
  have hbracket (value : Nat) : '[' ∉ Nat.toDigits 10 value := not_mem_toDigits (by decide) value
  constructor
  · intro h
    rw [← String.toList_inj, toList_operandText_mem, toList_operandText_mem, List.cons_inj_right,
      List.cons_inj_right, List.cons_inj_right] at h
    obtain ⟨hwidth, haddress⟩ := eq_of_append_separator (hbracket _) (hbracket _) h
    rw [List.append_left_inj, String.toList_inj] at haddress
    exact ⟨UInt16.toNat_inj.mp (toDigits_injective hwidth), haddress⟩
  · rintro ⟨rfl, haddress⟩
    simp only [Request.operandText, haddress]

theorem eq_of_operandText_eq (hengine : engine.NamesApart)
    (h : left.operandText engine op = right.operandText engine other) : op = other := by
  have hform : OperandForm.ofOperand op = .ofOperand other := by
    rw [← ofText_operandText hengine left op, h, ofText_operandText hengine right other]
  cases op <;> cases other <;> cases hform
  case empty.empty => rfl
  case reg.reg => exact congrArg Operand.reg (hengine.registerText_injective h)
  case mem.mem => exact congrArg Operand.mem (operandText_mem_eq_iff.mp h).1
  case imm.imm => exact congrArg Operand.imm (Immediate.eq_of_text_eq h)

/-- The text of an operand shows the operand and, of a memory operand, the text of the address. -/
theorem operandText_eq_iff (hengine : engine.NamesApart) :
    left.operandText engine op = right.operandText engine other ↔
      op = other ∧ ∀ width, op = .mem width →
        (left.address.toExpr engine).render = (right.address.toExpr engine).render := by
  constructor
  · intro h
    have hop := eq_of_operandText_eq hengine h
    refine ⟨hop, ?_⟩
    rintro width rfl
    subst hop
    exact (operandText_mem_eq_iff.mp h).2
  · rintro ⟨rfl, haddress⟩
    cases op with
    | mem width => exact operandText_mem_eq_iff.mpr ⟨rfl, haddress width rfl⟩
    | _ => rfl

theorem comma_not_mem_operandText (hengine : engine.NamesApart) {req : Request}
    (hreq : req.IsAlphanumeric) (hop : op ∈ req.operands.toList) :
    ',' ∉ (req.operandText engine op).toList := by
  cases op with
  | empty =>
    change ',' ∉ "<empty>".toList
    decide
  | reg id => exact hengine.comma_not_mem_registerText id
  | imm value => exact value.comma_not_mem_text
  | mem width =>
    have hmemory : req.operands.hasMemory := OperandSlots.hasMemory_iff.mpr ⟨width, hop⟩
    obtain ⟨hbase, hindex⟩ := hreq hmemory
    have haddress : ',' ∉ (req.address.toExpr engine).render.toList :=
      AddressExpr.comma_not_mem_render (hengine.comma_not_mem_text hbase)
        (hengine.comma_not_mem_text hindex)
    have hwidth : ',' ∉ Nat.toDigits 10 width.toNat := not_mem_toDigits (by decide) _
    rw [toList_operandText_mem]
    simp [hwidth, haddress]

/-! ### Requests -/

theorem map_operandText_eq_iff (hengine : engine.NamesApart) {ops others : List Operand} :
    ops.map (left.operandText engine) = others.map (right.operandText engine) ↔
      ops = others ∧ ∀ width, .mem width ∈ ops →
        (left.address.toExpr engine).render = (right.address.toExpr engine).render := by
  induction ops generalizing others with
  | nil => cases others <;> simp
  | cons op ops ih =>
    cases others with
    | nil => simp
    | cons other others =>
      rw [List.map_cons, List.map_cons, List.cons.injEq, List.cons.injEq, ih,
        operandText_eq_iff hengine]
      constructor
      · rintro ⟨⟨rfl, hfirst⟩, rfl, hrest⟩
        refine ⟨⟨rfl, rfl⟩, ?_⟩
        intro width hmem
        rcases List.mem_cons.mp hmem with hop | hmem
        · exact hfirst width hop.symm
        · exact hrest width hmem
      · rintro ⟨⟨rfl, rfl⟩, haddress⟩
        refine ⟨⟨rfl, ?_⟩, rfl, ?_⟩
        · rintro width rfl
          exact haddress width List.mem_cons_self
        · intro width hmem
          exact haddress width (List.mem_cons_of_mem _ hmem)

theorem toList_text (engine : Engine) (req : Request) :
    (req.text engine).toList
      = req.mnemonic.toList ++ listing (req.operands.toList.map (req.operandText engine)) := by
  rw [Request.text]
  cases req.operands.toList.map (req.operandText engine) with
  | nil => simp [listing]
  | cons word words =>
    simp only [String.toList_append, toList_intercalate_cons, List.append_assoc]
    rfl

/-- Two requests with one mnemonic have one text if and only if they have the same operands and, for
a memory operand, addresses with one text. -/
theorem text_eq_iff (hengine : engine.NamesApart) (hmnemonic : left.mnemonic = right.mnemonic)
    (hleft : left.IsAlphanumeric) (hright : right.IsAlphanumeric) :
    left.text engine = right.text engine ↔
      left.operands.toList = right.operands.toList ∧ (left.operands.hasMemory →
        (left.address.toExpr engine).render = (right.address.toExpr engine).render) := by
  have hcomma {req : Request} (hreq : req.IsAlphanumeric) :
      ∀ word ∈ req.operands.toList.map (req.operandText engine), ',' ∉ word.toList := by
    intro word hword
    obtain ⟨op, hop, rfl⟩ := List.mem_map.mp hword
    exact comma_not_mem_operandText hengine hreq hop
  have hmemory : (left.operands.hasMemory →
      (left.address.toExpr engine).render = (right.address.toExpr engine).render) ↔
      ∀ width, .mem width ∈ left.operands.toList →
        (left.address.toExpr engine).render = (right.address.toExpr engine).render := by
    rw [OperandSlots.hasMemory_iff, forall_exists_index]
  rw [hmemory, ← map_operandText_eq_iff hengine, ← String.toList_inj, toList_text, toList_text,
    hmnemonic, List.append_right_inj]
  constructor
  · exact eq_of_listing_eq (hcomma hleft) (hcomma hright)
  · intro h
    rw [h]

end Texts

end MachineCode
