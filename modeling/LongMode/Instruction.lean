import LongMode.Cursor
import LongMode.Immediate
import LongMode.Opcode

/-!
# Instructions

A decoded instruction is a record of its address, its length and its fields.
It does not refer to the region it was read from; `bytes` finds its bytes again
in a region with a known base address, and `encoding` writes them from the
fields.
-/

namespace LongMode

/-- One decoded instruction. -/
structure Instruction where
  /-- The logical address of the first byte, prefixes included. -/
  address : UInt64
  /-- The number of bytes, prefixes included. -/
  length : Nat
  opcode : Opcode
  prefixes : Prefixes
  addressing : Option Addressing
  displacement : Option Int32
  immediate : Option Immediate
deriving DecidableEq, Repr

namespace Instruction

/-- The address of the instruction that follows. -/
def nextAddress (instruction : Instruction) : UInt64 :=
  instruction.address + UInt64.ofNat instruction.length

/-- How many escape bytes stand before the opcode. -/
def escapeDepth (instruction : Instruction) : UInt8 :=
  instruction.opcode.map.escapeDepth

/-- Whether a memory operand is addressed relative to the next instruction. -/
def isRipRelative (instruction : Instruction) : Bool :=
  match instruction.addressing with
  | some addressing => addressing.ripRelative
  | none => false

/-- The absolute address of an operand that is addressed relative to the next
    instruction. -/
def ripTarget? (instruction : Instruction) : Option UInt64 :=
  if instruction.isRipRelative then
    let distance := (instruction.displacement.getD 0).toInt64
    some (instruction.nextAddress + distance.toUInt64)
  else none

/-- The bytes of the instruction in a region whose first byte lives at `base`,
    if the region holds them all. -/
def bytes? (instruction : Instruction) (region : List UInt8) (base : UInt64) :
    Option (List UInt8) := do
  let start := (instruction.address - base).toNat
  let stop ← wordSum? start instruction.length
  slice? region start stop

/-- The bytes of the displacement, in the size the operands ask for. -/
def displacementEncoding (instruction : Instruction) : List UInt8 :=
  match instruction.addressing, instruction.displacement with
  | some addressing, some displacement =>
      LittleEndian.bytes addressing.displacementSize.bytes displacement.toUInt32.toNat
  | _, _ => []

/-- The bytes of the fields that follow the prefixes. -/
def body (instruction : Instruction) : List UInt8 :=
  instruction.opcode.encoding
    ++ instruction.addressing.toList.flatMap Addressing.encoding
    ++ instruction.displacementEncoding
    ++ instruction.immediate.toList.flatMap Immediate.encoding

/-- The bytes of an instruction with these fields and one prefix for each
    category. -/
def encoding (instruction : Instruction) : List UInt8 :=
  instruction.prefixes.encoding ++ instruction.body

end Instruction

end LongMode
