/-!
Hexadecimal text: numerals behind `0x`, and byte strings of two digits a byte. Digits are lowercase.
-/

namespace MachineCode.Hex

/-- The digits of a number, most significant first, and `0` for zero. -/
def digits (value : Nat) : List Char := Nat.toDigits 16 value

/-- The numeral of a number, such as `0x1f`. -/
def numeral (value : Nat) : String := String.ofList ('0' :: 'x' :: digits value)

def isDigit (c : Char) : Bool := c.isDigit || ('a' ≤ c && c ≤ 'f')

/-- The value of a digit; meaningful for characters that satisfy `isDigit`. -/
def digitValue (c : Char) : Nat := if c.isDigit then c.toNat - 48 else c.toNat - 87

def byteDigits (byte : UInt8) : List Char :=
  [Nat.digitChar (byte.toNat / 16), Nat.digitChar (byte.toNat % 16)]

/-- Two digits for each byte, high half first. -/
def ofBytes (bytes : List UInt8) : String := String.ofList (bytes.flatMap byteDigits)

/-- The bytes that pairs of digits spell. -/
def bytes? : List Char → Option (List UInt8)
  | [] => some []
  | [_] => none
  | high :: low :: rest =>
    if isDigit high && isDigit low then
      (bytes? rest).map (UInt8.ofNat (16 * digitValue high + digitValue low) :: ·)
    else
      none

end MachineCode.Hex
