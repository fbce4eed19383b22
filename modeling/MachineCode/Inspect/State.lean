import MachineCode.Session.Encoder
import MachineCode.Inspect.Labels

/-!
The one-line texts of requests and encoders.
-/

namespace MachineCode

open Inspect

def Immediate.inspect (value : Immediate) : String :=
  tuple value.kind.label [toString value.toInt]

def Operand.inspect (op : Operand) : String :=
  match op with
  | .empty => op.kind.label
  | .reg id => tuple op.kind.label [id.inspect]
  | .mem width => record op.kind.label [("width", toString width)]
  | .imm value => value.inspect

def RegisterRef.inspect : RegisterRef → String
  | .none => "None"
  | .name given => tuple "Name" [quoted given]
  | .id known => tuple "Id" [known.inspect]

def Address.inspect (address : Address) : String :=
  record "MemAddr"
    [("base", address.base.inspect), ("index", address.index.inspect),
      ("scale", toString address.scale), ("disp", toString address.disp)]

def Misuse.inspect (misuse : Misuse) : String :=
  match misuse with
  | .tooManyOperands max => record misuse.label [("max", toString max)]
  | .invalidScale scale => tuple misuse.label [toString scale]
  | .duplicateMemory | .duplicateImmediate => misuse.label

def RefusalCode.inspect (code : RefusalCode) : String :=
  match code with
  | .other number => tuple code.label [toString number]
  | _ => code.label

def Refusal.inspect (refusal : Refusal) : String :=
  record "EngineError" [("code", refusal.code.inspect)]

def EncodeFailure.inspect (error : EncodeFailure) : String :=
  match error with
  | .mnemonicTooLong length max =>
    record error.label [("len", toString length), ("max", toString max)]
  | .operandCount count => tuple error.label [toString count]
  | .misused misuse => tuple error.label [misuse.inspect]
  | .unrepresentable => error.label
  | .refused refusal => tuple error.label [refusal.inspect]

def Request.inspect (req : Request) : String :=
  record "Request"
    [("mnemonic", quoted req.mnemonic),
      ("operands", list (req.operands.toList.map Operand.inspect)),
      ("eosz", req.size.label), ("mem", req.address.inspect),
      ("disp_width", req.dispPolicy.label), ("error", option (req.misuse.map Misuse.inspect))]

def Encoder.inspect {engine : Engine} (enc : Encoder engine) : String :=
  openRecord "Encoder"
    [("engine", engine.label), ("mode", enc.mode.label), ("disp_width", enc.dispPolicy.label),
      ("output", list (enc.output.map toString)),
      ("last_error", option (enc.lastError.map EncodeFailure.inspect))]

end MachineCode
