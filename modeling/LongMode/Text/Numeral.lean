import LongMode.Text.Hexadecimal

/-!
# Reading unsigned numerals

A numeral is an optional plus sign and one or more digits of a radix up to
sixteen, of either case and with any number of leading zeros.  Its value has
to fit in 64 bits.  Digits are taken from the left, so of a bad digit and an
overflow the one that comes first is reported.
-/

namespace LongMode.Numeral

/-- Why a text is not a numeral of a 64-bit value. -/
inductive Error where
  | empty
  | invalidDigit
  | tooLarge
deriving DecidableEq, Repr

/-- The wording of a numeral error. -/
def Error.message : Error → String
  | .empty => "cannot parse integer from empty string"
  | .invalidDigit => "invalid digit found in string"
  | .tooLarge => "number too large to fit in target type"

/-- The value of a digit in the given radix. -/
def digitValue? (radix : Nat) (digit : Char) : Option Nat :=
  (Hex.digitValue? digit).filter (· < radix)

/-- The value of a digit sequence that follows digits worth `value`. -/
def readDigits (radix : Nat) : Nat → List Char → Except Error Nat
  | value, [] => .ok value
  | value, digit :: rest =>
      match digitValue? radix digit with
      | none => .error .invalidDigit
      | some unit =>
          if value * radix + unit < UInt64.size then readDigits radix (value * radix + unit) rest
          else .error .tooLarge

/-- The value of a numeral.  A sign that stands alone is a bad digit. -/
def read (radix : Nat) : List Char → Except Error Nat
  | [] => .error .empty
  | ['+'] => .error .invalidDigit
  | '+' :: digits => readDigits radix 0 digits
  | digits => readDigits radix 0 digits

/-- The value of a decimal numeral. -/
def readDecimal (text : String) : Except Error Nat :=
  read 10 text.toList

/-- The value of a hexadecimal numeral, which may stand behind the marker `0x`. -/
def readHexadecimal (text : String) : Except Error UInt64 :=
  let digits :=
    match text.toList with
    | '0' :: 'x' :: digits => digits
    | digits => digits
  (read 16 digits).map UInt64.ofNat

end LongMode.Numeral
