/-!
# Operand bytes

The ModR/M and SIB bytes have one layout: two high bits, then two fields of
three bits.  A REX bit extends a field of three bits to four, as its highest.
-/

namespace LongMode.OperandByte

/-- The two high bits. -/
def high (byte : UInt8) : UInt8 :=
  byte >>> (6 : UInt8)

/-- The three bits in the middle. -/
def middle (byte : UInt8) : UInt8 :=
  (byte >>> (3 : UInt8)) &&& (0x7 : UInt8)

/-- The three low bits. -/
def low (byte : UInt8) : UInt8 :=
  byte &&& (0x7 : UInt8)

/-- The byte with the given fields, of which only the bits that fit count. -/
def join (high middle low : UInt8) : UInt8 :=
  (high <<< (6 : UInt8)) ||| ((middle &&& (0x7 : UInt8)) <<< (3 : UInt8))
    ||| (low &&& (0x7 : UInt8))

/-- A field of three bits with a fourth on top. -/
def extend (field : UInt8) (bit : Bool) : UInt8 :=
  field ||| (bit.toUInt8 <<< (3 : UInt8))

end LongMode.OperandByte
