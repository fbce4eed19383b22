import MachineCode.Address.Parser
import MachineCode.Session.Failure

/-!
The names of the cases of each type, as texts and data forms write them.
-/

namespace MachineCode

def Mode.label : Mode → String
  | .mode32 => "Mode32"
  | .mode64 => "Mode64"

def SizeHint.label : SizeHint → String
  | .unset => "Default"
  | .bits8 => "Bits8"
  | .bits16 => "Bits16"
  | .bits32 => "Bits32"
  | .bits64 => "Bits64"

def DispPolicy.label : DispPolicy → String
  | .auto => "Auto"
  | .bits8 => "Bits8"
  | .bits32 => "Bits32"

def RefusalCode.label : RefusalCode → String
  | .generalError => "GeneralError"
  | .bufferTooShort => "BufferTooShort"
  | .invalidMode => "InvalidMode"
  | .badRegister => "BadRegister"
  | .badClass => "BadIClass"
  | .badOperandCount => "BadOperandCount"
  | .operandSizeMismatch => "OperandSizeMismatch"
  | .noMatchingForm => "NoMatchingForm"
  | .badDisplacement => "BadDisplacement"
  | .badScale => "BadScale"
  | .highByteWithRex => "HighByteWithRex"
  | .other _ => "Other"

def ImmediateKind.label : ImmediateKind → String
  | .uint8 => "Uint8"
  | .uint32 => "Uint32"
  | .uint64 => "Uint64"
  | .int8 => "Int8"
  | .int16 => "Int16"
  | .int32 => "Int32"
  | .rel8 => "Rel8"
  | .rel16 => "Rel16"
  | .rel32 => "Rel32"

def OperandKind.label : OperandKind → String
  | .empty => "Empty"
  | .reg => "Reg"
  | .mem => "Mem"
  | .imm kind => kind.label

def AddressError.label : AddressError → String
  | .displacement _ => "Displacement"
  | .displacementRange _ => "DisplacementRange"
  | .scale _ => "Scale"
  | .missingRegister _ => "MissingRegister"
  | .malformed _ => "Malformed"

def Misuse.label : Misuse → String
  | .tooManyOperands _ => "TooManyOperands"
  | .duplicateMemory => "DuplicateMemory"
  | .duplicateImmediate => "DuplicateImmediate"
  | .invalidScale _ => "InvalidScale"

def EncodeFailure.label : EncodeFailure → String
  | .mnemonicTooLong _ _ => "NameTooLong"
  | .operandCount _ => "OperandCountInvalid"
  | .misused _ => "Usage"
  | .unrepresentable => "ConversionFailed"
  | .refused _ => "Engine"

end MachineCode
