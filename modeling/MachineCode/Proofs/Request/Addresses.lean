import MachineCode.Proofs.Session.Encoding

/-!
# Addresses of requests

The address of a request stands beside its operands. No push looks at it, and the engine sees only
what its registers come to in the tables.
-/

namespace MachineCode

/-- An address with its names looked up in the tables of the engine. -/
def Address.resolved (engine : Engine) (policy : DispPolicy) (address : Address) :
    ResolvedMemory where
  base := address.base.resolved engine
  index := address.index.resolved engine
  scale := address.scale
  disp := address.disp.toInt64
  dispBits := policy.widthFor address.disp
  width := 0

/-- The two addresses come to the same registers. -/
structure Address.Alike (engine : Engine) (left right : Address) : Prop where
  base : right.base.resolved engine = left.base.resolved engine
  index : right.index.resolved engine = left.index.resolved engine
  scale : right.scale = left.scale
  disp : right.disp = left.disp

theorem Address.Alike.refl (engine : Engine) (address : Address) : address.Alike engine address :=
  ⟨rfl, rfl, rfl, rfl⟩

theorem Address.Alike.resolved {engine : Engine} {left right : Address}
    (h : left.Alike engine right) (policy : DispPolicy) :
    right.resolved engine policy = left.resolved engine policy := by
  simp only [Address.resolved, h.base, h.index, h.scale, h.disp]

namespace Request

def withAddress (req : Request) (address : Address) : Request := { req with address }

theorem append_withAddress (req : Request) (address : Address) (op : Operand) :
    (req.withAddress address).append op
      = (req.append op).map fun appended => appended.withAddress address := by
  have hoperands : (req.withAddress address).operands = req.operands := rfl
  rw [append, append, hoperands]
  split
  · rfl
  split
  · rfl
  cases req.operands.push op <;> rfl

theorem push_withAddress (req : Request) (address : Address) (op : Operand) :
    (req.withAddress address).push op = (req.push op).withAddress address := by
  rw [push, push, append_withAddress]
  cases req.append op <;> rfl

/-- A memory operand that is stored brings its own address. -/
theorem pushMemory_eq (req : Request) (width : UInt16) (address : Address) :
    req.pushMemory width address
      = (req.push (.mem width)).withAddress
          (if (req.append (.mem width)).isOk then address else req.address) := by
  rw [pushMemory, push]
  cases req.append (.mem width) <;> rfl

/-- The two requests differ in the way in which their address gives its registers, if at all. -/
inductive Alike (engine : Engine) : Request → Request → Prop where
  | intro {req : Request} {left right : Address} (h : left.Alike engine right) :
      Alike engine (req.withAddress left) (req.withAddress right)

namespace Alike

variable {engine : Engine} {left right : Request}

theorem refl (engine : Engine) (req : Request) : req.Alike engine req :=
  .intro (.refl engine req.address)

variable (h : left.Alike engine right)
include h

theorem operands : right.operands = left.operands := by
  cases h
  rfl

theorem push (op : Operand) : (left.push op).Alike engine (right.push op) := by
  cases h with
  | intro h =>
    rw [push_withAddress, push_withAddress]
    exact .intro h

theorem pushMemory (width : UInt16) (address : Address) :
    (left.pushMemory width address).Alike engine (right.pushMemory width address) := by
  cases h with
  | @intro req left right h =>
    rw [pushMemory_eq, pushMemory_eq, push_withAddress, push_withAddress, append_withAddress,
      append_withAddress]
    cases req.append (.mem width) with
    | ok appended => exact .intro (.refl engine address)
    | error reason => exact .intro h

theorem setSize (hint : SizeHint) : (left.setSize hint).Alike engine (right.setSize hint) := by
  cases h with
  | @intro req _ _ h => exact @intro engine (req.setSize hint) _ _ h

theorem setDispPolicy (policy : DispPolicy) :
    (left.setDispPolicy policy).Alike engine (right.setDispPolicy policy) := by
  cases h with
  | @intro req _ _ h => exact @intro engine (req.setDispPolicy policy) _ _ h

theorem setBase {base other : RegisterRef} (href : other.resolved engine = base.resolved engine) :
    (left.setBase base).Alike engine (right.setBase other) := by
  cases h with
  | @intro req _ _ h => exact @intro engine req _ _ ⟨href, h.index, h.scale, h.disp⟩

theorem setIndex {index other : RegisterRef}
    (href : other.resolved engine = index.resolved engine) :
    (left.setIndex index).Alike engine (right.setIndex other) := by
  cases h with
  | @intro req _ _ h => exact @intro engine req _ _ ⟨h.base, href, h.scale, h.disp⟩

theorem setScale (scale : UInt8) : (left.setScale scale).Alike engine (right.setScale scale) := by
  cases h with
  | @intro req _ _ h => exact @intro engine req _ _ ⟨h.base, h.index, rfl, h.disp⟩

theorem setDisp (disp : Int32) : (left.setDisp disp).Alike engine (right.setDisp disp) := by
  cases h with
  | @intro req _ _ h => exact @intro engine req _ _ ⟨h.base, h.index, h.scale, rfl⟩

theorem rejection? : right.rejection? = left.rejection? := by
  cases h with
  | intro h =>
    simp only [Request.rejection?, withAddress, Address.hasValidScale, h.scale]
    rfl

theorem instruction? (mode : Mode) (policy : DispPolicy) :
    right.instruction? engine mode policy = left.instruction? engine mode policy := by
  cases h with
  | @intro req left right h =>
    have haddress : (req.withAddress right).resolvedAddress engine policy
        = (req.withAddress left).resolvedAddress engine policy :=
      h.resolved (req.dispPolicy.orElse policy)
    rw [Request.instruction?, Request.instruction?, haddress]
    rfl

end Alike

end Request

end MachineCode
