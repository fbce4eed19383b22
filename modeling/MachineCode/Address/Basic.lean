import MachineCode.Address.Expr
import MachineCode.Instruction.Engine

/-!
The address of a memory operand, whose registers are named or already resolved.
-/

namespace MachineCode

inductive RegisterRef where
  | none
  /-- A name that is looked up when the request is encoded. -/
  | name (name : String)
  | id (id : RegisterId)
deriving DecidableEq, Repr

namespace RegisterRef

/-- The reference to a name; the empty name refers to no register. -/
def ofName (name : String) : RegisterRef := if name.isEmpty then .none else .name name

/-- The name of the register, as far as the engine knows one. -/
def text (engine : Engine) : RegisterRef → String
  | .none => ""
  | .name given => given
  | .id known => (engine.registers.name? known).getD s!"<reg#{known.number}>"

/-- An id, or a name of letters and digits, if any. -/
inductive IsAlphanumeric : RegisterRef → Prop where
  | none : IsAlphanumeric .none
  | name {given : String} (hgiven : ∀ c ∈ given.toList, c.isAlphanum) : IsAlphanumeric (.name given)
  | id (known : RegisterId) : IsAlphanumeric (.id known)

instance : DecidablePred IsAlphanumeric
  | .none => isTrue .none
  | .name given =>
    decidable_of_iff (given.toList.all Char.isAlphanum)
      ⟨fun h => .name (List.all_eq_true.mp h), fun | .name hgiven => List.all_eq_true.mpr hgiven⟩
  | .id known => isTrue (.id known)

end RegisterRef

structure Address where
  base : RegisterRef := .none
  index : RegisterRef := .none
  scale : UInt8 := 0
  disp : Int32 := 0
deriving DecidableEq, Repr

namespace Address

def ofExpr (expr : AddressExpr) : Address :=
  { base := .ofName expr.base, index := .ofName expr.index, scale := expr.scale, disp := expr.disp }

def toExpr (engine : Engine) (address : Address) : AddressExpr :=
  { base := address.base.text engine
    index := address.index.text engine
    scale := address.scale
    disp := address.disp }

/-- The scales that an address can have: none, or one of the four machine scales. -/
def hasValidScale (address : Address) : Bool :=
  [0, 1, 2, 4, 8].contains address.scale

end Address

inductive DispPolicy where
  /-- The least width that holds the value. -/
  | auto
  | bits8
  | bits32
deriving DecidableEq, Repr, Inhabited

namespace DispPolicy

def bits? : DispPolicy → Option UInt8
  | .auto => none
  | .bits8 => some 8
  | .bits32 => some 32

/-- The width for a value: a fixed one, or the least of 0, 8 and 32 bits that holds it. -/
def widthFor (policy : DispPolicy) (disp : Int32) : UInt8 :=
  match policy.bits? with
  | some bits => bits
  | none =>
    if disp = 0 then 0
    else if -128 ≤ disp.toInt ∧ disp.toInt ≤ 127 then 8
    else 32

/-- The first of two policies that is not automatic. -/
def orElse : DispPolicy → DispPolicy → DispPolicy
  | .auto, other => other
  | policy, _ => policy

end DispPolicy

end MachineCode
