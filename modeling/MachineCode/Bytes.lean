/-!
Byte strings: fields written least significant byte first, and a buffer whose front is overwritten.
-/

namespace MachineCode

/-- The `count` low bytes of `value`, least significant first. -/
def littleEndian : Nat → Nat → List UInt8
  | 0, _ => []
  | count + 1, value => UInt8.ofNat value :: littleEndian count (value / 256)

/-- The number of values that a field of `bits` bits can hold. -/
def fieldRange (bits : Nat) : Nat := Nat.pow 2 bits

/-- The number that a field holds when its first byte is the least significant one. -/
def ofLittleEndian : List UInt8 → Nat
  | [] => 0
  | byte :: rest => byte.toNat + 256 * ofLittleEndian rest

@[simp]
theorem length_littleEndian (count value : Nat) : (littleEndian count value).length = count := by
  induction count generalizing value with
  | zero => rfl
  | succ count ih => simp [littleEndian, ih]

theorem fieldRange_eight_mul_succ (count : Nat) :
    fieldRange (8 * (count + 1)) = 256 * fieldRange (8 * count) := by
  have hadd : Nat.pow 2 (8 * count + 8) = Nat.pow 2 (8 * count) * Nat.pow 2 8 :=
    Nat.pow_add 2 (8 * count) 8
  rw [fieldRange, fieldRange, Nat.mul_succ, hadd, Nat.mul_comm]

theorem ofLittleEndian_littleEndian (count value : Nat) :
    ofLittleEndian (littleEndian count value) = value % fieldRange (8 * count) := by
  induction count generalizing value with
  | zero => simp [littleEndian, ofLittleEndian, fieldRange, Nat.mod_one]
  | succ count ih =>
    rw [fieldRange_eight_mul_succ, Nat.mod_mul]
    simp [littleEndian, ofLittleEndian, ih]

/-- The buffer with its first bytes replaced; bytes that do not fit are dropped. -/
def overwrite {size : Nat} (buffer : Vector UInt8 size) (bytes : List UInt8) : Vector UInt8 size :=
  Vector.ofFn fun i => bytes[i.val]?.getD buffer[i]

end MachineCode
