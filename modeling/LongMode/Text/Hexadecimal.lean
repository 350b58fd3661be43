/-!
# Hexadecimal text

Addresses and bytes are shown in lower-case hexadecimal.  A numeral is padded
with zeros on the left to a least width and never cut, so wide addresses keep
all their digits.  Bytes are read back two digits at a time, in either case.
-/

namespace LongMode.Hex

/-- The lower-case digits of a number, most significant first, padded with
    zeros to at least `width` digits. -/
def digits (width value : Nat) : List Char :=
  (Nat.toDigits 16 value).leftpad width '0'

/-- The numeral of a number with at least `width` digits. -/
def padded (width value : Nat) : String :=
  String.ofList (digits width value)

/-- The shortest numeral of a number, behind the marker `0x`. -/
def marked (value : Nat) : String :=
  "0x" ++ padded 1 value

/-- The two digits of a byte. -/
def byte (value : UInt8) : String :=
  padded 2 value.toNat

/-- The two digits of a byte, behind the marker `0x`. -/
def markedByte (value : UInt8) : String :=
  "0x" ++ byte value

/-- The digits of a byte string, run together. -/
def joined (bytes : List UInt8) : String :=
  String.join (bytes.map byte)

/-- The digits of a byte string, with one blank between bytes. -/
def spaced (bytes : List UInt8) : String :=
  " ".intercalate (bytes.map byte)

/-- The value of a digit of either case. -/
def digitValue? (digit : Char) : Option Nat :=
  if '0' ≤ digit ∧ digit ≤ '9' then some (digit.toNat - '0'.toNat)
  else if 'a' ≤ digit ∧ digit ≤ 'f' then some (digit.toNat - 'a'.toNat + 10)
  else if 'A' ≤ digit ∧ digit ≤ 'F' then some (digit.toNat - 'A'.toNat + 10)
  else none

/-- The byte string written by pairs of digits that are run together. -/
def bytes? : List Char → Option (List UInt8)
  | [] => some []
  | [_] => none
  | high :: low :: rest => do
      let highValue ← digitValue? high
      let lowValue ← digitValue? low
      let following ← bytes? rest
      pure (UInt8.ofNat (16 * highValue + lowValue) :: following)

end LongMode.Hex
