import LongMode.Addressing
import LongMode.Prefixes
import LongMode.Reader

/-!
# Immediate operands

The last bytes of an instruction are its immediate operand: a constant, a
branch distance or an absolute address.  An opcode fixes a kind of immediate;
prefixes and the reg field of ModR/M decide how many bytes it takes.
-/

namespace LongMode

/-- The kinds of immediate operands. -/
inductive ImmediateKind where
  | absent
  | byte
  | word
  | doubleword
  /-- Two bytes with the operand size prefix, four otherwise. -/
  | operandSized
  /-- As wide as the operand, up to eight bytes. -/
  | operandSizedFull
  /-- A frame size of two bytes and a nesting level of one. -/
  | enter
  /-- An absolute address: eight bytes, or four with the address size prefix. -/
  | memoryOffset
  /-- A byte for TEST, nothing for the other operations of the group. -/
  | testByte
  /-- An operand-sized number for TEST, nothing for the other operations. -/
  | testOperandSized
  /-- Two bytes under the operand size prefix or REPNE, nothing otherwise. -/
  | byteExtract
deriving DecidableEq, Repr

namespace ImmediateKind

/-- The bytes of an operand-sized immediate.  A 64-bit operand takes four. -/
def operandSizedBytes (prefixes : Prefixes) : Nat :=
  match prefixes.operandWidth with
  | .word => 2
  | .doubleword => 4
  | .quadword => 4

/-- The bytes of an immediate as wide as the operand. -/
def fullWidthBytes (prefixes : Prefixes) : Nat :=
  match prefixes.operandWidth with
  | .word => 2
  | .doubleword => 4
  | .quadword => 8

/-- Whether the reg field selects TEST in its group. -/
def selectsTest : Option Addressing → Bool
  | some addressing => OperandByte.low addressing.modrm.reg ≤ 1
  | none => false

/-- The bytes an immediate takes under the given prefixes and operands. -/
def size (kind : ImmediateKind) (prefixes : Prefixes) (addressing : Option Addressing) : Nat :=
  match kind with
  | .absent => 0
  | .byte => 1
  | .word => 2
  | .doubleword => 4
  | .operandSized => operandSizedBytes prefixes
  | .operandSizedFull => fullWidthBytes prefixes
  | .enter => 3
  | .memoryOffset => if prefixes.addressSize then 4 else 8
  | .testByte => if selectsTest addressing then 1 else 0
  | .testOperandSized => if selectsTest addressing then operandSizedBytes prefixes else 0
  | .byteExtract => if prefixes.operandSize ∨ prefixes.repetition = some .repne then 2 else 0

/-- No immediate takes more than eight bytes. -/
theorem size_le_eight (kind : ImmediateKind) (prefixes : Prefixes)
    (addressing : Option Addressing) : kind.size prefixes addressing ≤ 8 := by
  unfold size operandSizedBytes fullWidthBytes
  grind

end ImmediateKind

/-- An immediate operand: its bytes as an unsigned number, and their count. -/
structure Immediate where
  value : UInt64
  size : UInt8
deriving DecidableEq, Repr

namespace Immediate

/-- The value extended by the sign of its width.  Three bytes have no sign. -/
def signed (immediate : Immediate) : Int64 :=
  if immediate.size = 1 then immediate.value.toUInt8.toInt8.toInt64
  else if immediate.size = 2 then immediate.value.toUInt16.toInt16.toInt64
  else if immediate.size = 4 then immediate.value.toUInt32.toInt32.toInt64
  else immediate.value.toInt64

/-- The frame size and the nesting level of a three-byte immediate. -/
def enterOperands? (immediate : Immediate) : Option (UInt16 × UInt8) :=
  if immediate.size = 3 then
    some (immediate.value.toUInt16, (immediate.value >>> 16).toUInt8)
  else none

/-- Reads an immediate of the given kind, where it has bytes. -/
def read (kind : ImmediateKind) (prefixes : Prefixes) (addressing : Option Addressing) :
    Reader (Option Immediate) := do
  let size := kind.size prefixes addressing
  if size = 0 then pure none
  else do
    let value ← Reader.littleEndian size
    pure (some { value, size := UInt8.ofNat size })

/-- The bytes of an immediate. -/
def encoding (immediate : Immediate) : List UInt8 :=
  LittleEndian.bytes immediate.size.toNat immediate.value.toNat

end Immediate

end LongMode
