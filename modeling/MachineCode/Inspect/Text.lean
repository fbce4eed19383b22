import MachineCode.Instruction.Basic
import MachineCode.Text.Hex
import MachineCode.Text.Printable

/-!
One-line texts that show a value with its constructors: `Some(x)`, `Point { x: 1, y: 2 }`,
`[1, 2]`, and strings in double quotes, where quotes, backslashes and characters that cannot be
printed are escaped.
-/

namespace MachineCode

namespace Inspect

def tuple (name : String) (args : List String) : String :=
  name ++ "(" ++ ", ".intercalate args ++ ")"

def fields (items : List (String × String)) : List String :=
  items.map fun (name, value) => name ++ ": " ++ value

def record (name : String) (items : List (String × String)) : String :=
  name ++ " \x7b " ++ ", ".intercalate (fields items) ++ " \x7d"

/-- A structure of which some fields are not shown. -/
def openRecord (name : String) (items : List (String × String)) : String :=
  name ++ " \x7b " ++ ", ".intercalate (fields items ++ [".."]) ++ " \x7d"

def list (items : List String) : String := "[" ++ ", ".intercalate items ++ "]"

def option : Option String → String
  | none => "None"
  | some value => tuple "Some" [value]

def escape (c : Char) : String :=
  if c = '"' then "\\\""
  else if c = '\\' then "\\\\"
  else if c = '\t' then "\\t"
  else if c = '\n' then "\\n"
  else if c = '\r' then "\\r"
  else if c = '\x00' then "\\0"
  else if Text.isPrintable c then String.singleton c
  else "\\u\x7b" ++ String.ofList (Hex.digits c.toNat) ++ "\x7d"

def quoted (text : String) : String := "\"" ++ String.join (text.toList.map escape) ++ "\""

end Inspect

/-! ### The values that logs and state dumps show -/

open Inspect

def RegisterId.inspect (id : RegisterId) : String := tuple "RegisterId" [toString id.number]

def ClassId.inspect (id : ClassId) : String := tuple "IClass" [toString id.number]

def ResolvedOperand.inspect : ResolvedOperand → String
  | .reg id => tuple "Reg" [id.inspect]
  | .unsigned value bits => record "Imm" [("value", toString value), ("bits", toString bits)]
  | .signed value bits => record "SImm" [("value", toString value), ("bits", toString bits)]
  | .mem memory =>
    record "Mem"
      [("base", memory.base.inspect), ("index", memory.index.inspect),
        ("scale", toString memory.scale), ("disp", toString memory.disp),
        ("disp_bits", toString memory.dispBits), ("width", toString memory.width)]
  | .relative disp bits => record "RelBr" [("disp", toString disp), ("bits", toString bits)]

end MachineCode
