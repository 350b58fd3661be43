/-!
# Little-endian numbers

The value of a byte string whose first byte is the least significant, and the
byte string of a value.
-/

namespace LongMode.LittleEndian

/-- The number a byte string stands for. -/
def value : List UInt8 → Nat
  | [] => 0
  | byte :: rest => byte.toNat + 256 * value rest

/-- The lowest `count` bytes of a number. -/
def bytes : (count : Nat) → (number : Nat) → List UInt8
  | 0, _ => []
  | count + 1, number => UInt8.ofNat number :: bytes count (number / 256)

@[simp]
theorem length_bytes (count number : Nat) : (bytes count number).length = count := by
  induction count generalizing number with
  | zero => rfl
  | succ count ih => simp [bytes, ih]

/-- Writing the number of a byte string gives the byte string back. -/
theorem bytes_value (source : List UInt8) : bytes source.length (value source) = source := by
  induction source with
  | nil => rfl
  | cons byte rest ih =>
      have low : UInt8.ofNat (byte.toNat + 256 * value rest) = byte := by
        apply UInt8.toNat_inj.mp
        simp
      have high : (byte.toNat + 256 * value rest) / 256 = value rest := by
        have small := byte.toNat_lt
        omega
      simp only [List.length_cons, bytes, value, low, high, ih]

end LongMode.LittleEndian
