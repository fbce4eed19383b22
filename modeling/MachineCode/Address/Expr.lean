import MachineCode.Text.Hex

/-!
Effective addresses as they are written: two register names, a scale and a displacement, and the
text of an expression such as `RAX+RCX*4-0x1fa`.
-/

namespace MachineCode

/-- An address `base + index * scale + disp` over register names. An empty name stands for no
register, and scale 0 for no scale. -/
structure AddressExpr where
  base : String := ""
  index : String := ""
  scale : UInt8 := 0
  disp : Int32 := 0
deriving DecidableEq, Repr, Inhabited

namespace AddressExpr

def ofBase (base : String) : AddressExpr := { base }

def ofIndex (index : String) (scale : UInt8) : AddressExpr := { index, scale }

def ofBaseIndex (base index : String) (scale : UInt8) : AddressExpr := { base, index, scale }

def displaced (expr : AddressExpr) (disp : Int32) : AddressExpr := { expr with disp }

def isEmpty (expr : AddressExpr) : Bool :=
  expr.base.isEmpty && expr.index.isEmpty && expr.disp == 0

/-- The register part. An index that stands alone always shows a scale, so that it does not read
back as a base. -/
def registersText (expr : AddressExpr) : String :=
  if expr.index.isEmpty then
    expr.base
  else if expr.base.isEmpty then
    expr.index ++ "*" ++ toString (max expr.scale.toNat 1)
  else if expr.scale = 0 then
    expr.base ++ "+" ++ expr.index
  else
    expr.base ++ "+" ++ expr.index ++ "*" ++ toString expr.scale.toNat

/-- The sign and magnitude of a displacement; zero is not written. -/
def dispText (disp : Int32) : String :=
  if disp = 0 then
    ""
  else
    (if disp < 0 then "-" else "+") ++ Hex.numeral disp.toInt.natAbs

def render (expr : AddressExpr) : String := expr.registersText ++ dispText expr.disp

end AddressExpr

end MachineCode
