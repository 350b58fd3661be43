/-!
# Instruction prefixes

Legacy prefixes and REX prefixes modify the instruction that follows them.  A
legacy prefix belongs to a category, and the last prefix of a category counts.
-/

namespace LongMode

/-- The segment registers an override can name. -/
inductive Segment where
  | es
  | cs
  | ss
  | ds
  | fs
  | gs
deriving DecidableEq, Repr

namespace Segment

/-- The segment a prefix byte names. -/
def ofByte? (byte : UInt8) : Option Segment :=
  if byte = 0x26 then some .es
  else if byte = 0x2E then some .cs
  else if byte = 0x36 then some .ss
  else if byte = 0x3E then some .ds
  else if byte = 0x64 then some .fs
  else if byte = 0x65 then some .gs
  else none

/-- The prefix byte that names a segment. -/
def toByte : Segment → UInt8
  | .es => 0x26
  | .cs => 0x2E
  | .ss => 0x36
  | .ds => 0x3E
  | .fs => 0x64
  | .gs => 0x65

end Segment

/-- The repeat prefixes, which share one category. -/
inductive RepeatPrefix where
  | rep
  | repne
deriving DecidableEq, Repr

/-- The prefix byte of a repeat prefix. -/
def RepeatPrefix.toByte : RepeatPrefix → UInt8
  | .rep => 0xF3
  | .repne => 0xF2

/-- The four bits of a REX prefix. -/
structure Rex where
  /-- 64-bit operand size. -/
  w : Bool := false
  /-- Extends the reg field. -/
  r : Bool := false
  /-- Extends the index field. -/
  x : Bool := false
  /-- Extends the r/m field, the base field or the register of the opcode. -/
  b : Bool := false
deriving DecidableEq, Repr

namespace Rex

/-- Whether a byte is a REX prefix. -/
def isRex (byte : UInt8) : Bool :=
  byte &&& 0xF0 == 0x40

/-- The bits in the lower half of a byte. -/
def ofByte (byte : UInt8) : Rex where
  w := byte &&& 0x08 != 0
  r := byte &&& 0x04 != 0
  x := byte &&& 0x02 != 0
  b := byte &&& 0x01 != 0

/-- The prefix byte with the given bits. -/
def toByte (rex : Rex) : UInt8 :=
  (0x40 : UInt8) ||| rex.w.toUInt8 <<< (3 : UInt8) ||| rex.r.toUInt8 <<< (2 : UInt8)
    ||| rex.x.toUInt8 <<< (1 : UInt8) ||| rex.b.toUInt8

end Rex

/-- A legacy prefix, by category. -/
inductive LegacyPrefix where
  | segment (register : Segment)
  | operandSize
  | addressSize
  | repetition (kind : RepeatPrefix)
  | lock
deriving DecidableEq, Repr

namespace LegacyPrefix

/-- The legacy prefix a byte stands for. -/
def ofByte? (byte : UInt8) : Option LegacyPrefix :=
  if byte = 0x66 then some .operandSize
  else if byte = 0x67 then some .addressSize
  else if byte = 0xF0 then some .lock
  else if byte = 0xF2 then some (.repetition .repne)
  else if byte = 0xF3 then some (.repetition .rep)
  else (Segment.ofByte? byte).map .segment

/-- The byte of a legacy prefix. -/
def toByte : LegacyPrefix → UInt8
  | .segment register => register.toByte
  | .operandSize => 0x66
  | .addressSize => 0x67
  | .repetition kind => kind.toByte
  | .lock => 0xF0

/-- Whether a byte is a legacy prefix. -/
def isLegacy (byte : UInt8) : Bool :=
  (ofByte? byte).isSome

/-- The byte of a legacy prefix stands for it. -/
theorem ofByte?_toByte (legacy : LegacyPrefix) : ofByte? legacy.toByte = some legacy := by
  cases legacy with
  | segment register => cases register <;> decide
  | repetition kind => cases kind <;> decide
  | operandSize | addressSize | lock => decide

end LegacyPrefix

/-- The effective operand width of an opcode whose operands default to 32 bits. -/
inductive OperandWidth where
  | word
  | doubleword
  | quadword
deriving DecidableEq, Repr

/-- An operand width in bits. -/
def OperandWidth.bits : OperandWidth → Nat
  | .word => 16
  | .doubleword => 32
  | .quadword => 64

/-- The prefixes of one instruction. -/
structure Prefixes where
  segment : Option Segment := none
  operandSize : Bool := false
  addressSize : Bool := false
  repetition : Option RepeatPrefix := none
  lock : Bool := false
  rex : Option Rex := none
  /-- How many prefix bytes the instruction has, REX prefixes included. -/
  count : UInt8 := 0
deriving DecidableEq, Repr

namespace Prefixes

/-- Records a legacy prefix in its category, over an earlier one. -/
def apply (prefixes : Prefixes) : LegacyPrefix → Prefixes
  | .segment register => { prefixes with segment := some register }
  | .operandSize => { prefixes with operandSize := true }
  | .addressSize => { prefixes with addressSize := true }
  | .repetition kind => { prefixes with repetition := some kind }
  | .lock => { prefixes with lock := true }

/-- The prefixes after one more legacy prefix byte, which cancels a REX prefix
    in front of it. -/
def afterLegacy (prefixes : Prefixes) (legacy : LegacyPrefix) : Prefixes :=
  { prefixes.apply legacy with rex := none, count := prefixes.count + 1 }

/-- The prefixes after one more REX prefix byte, which replaces an earlier one. -/
def afterRex (prefixes : Prefixes) (rex : Rex) : Prefixes :=
  { prefixes with rex := some rex, count := prefixes.count + 1 }

/-- The REX prefix, or one with all bits clear. -/
def rexOrClear (prefixes : Prefixes) : Rex :=
  prefixes.rex.getD {}

/-- Whether a REX prefix asks for 64-bit operands. -/
def rexW (prefixes : Prefixes) : Bool :=
  prefixes.rexOrClear.w

/-- The operand width.  A REX prefix that asks for 64 bits wins over the operand
    size prefix. -/
def operandWidth (prefixes : Prefixes) : OperandWidth :=
  if prefixes.rexW then .quadword
  else if prefixes.operandSize then .word
  else .doubleword

/-- The bytes of a minimal run of prefixes with these effects: one prefix for
    each category, the REX prefix last. -/
def encoding (prefixes : Prefixes) : List UInt8 :=
  prefixes.segment.toList.map Segment.toByte
    ++ (if prefixes.operandSize then [LegacyPrefix.operandSize.toByte] else [])
    ++ (if prefixes.addressSize then [LegacyPrefix.addressSize.toByte] else [])
    ++ prefixes.repetition.toList.map RepeatPrefix.toByte
    ++ (if prefixes.lock then [LegacyPrefix.lock.toByte] else [])
    ++ prefixes.rex.toList.map Rex.toByte

end Prefixes

end LongMode
