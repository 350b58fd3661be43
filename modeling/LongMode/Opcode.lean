import LongMode.Text.Hexadecimal

/-!
# Opcodes

An opcode is a byte in one of four maps.  Escape bytes in front of it select
the map: none for the one-byte map, `0F` for the two-byte map, and `0F 38` or
`0F 3A` for the two three-byte maps.
-/

namespace LongMode

/-- The four maps that escape bytes select. -/
inductive OpcodeMap where
  | oneByte
  | twoByte
  | threeByte38
  | threeByte3A
deriving DecidableEq, Repr

namespace OpcodeMap

/-- The escape bytes that select a map. -/
def escapeBytes : OpcodeMap → List UInt8
  | .oneByte => []
  | .twoByte => [0x0F]
  | .threeByte38 => [0x0F, 0x38]
  | .threeByte3A => [0x0F, 0x3A]

/-- How many escape bytes select a map. -/
def escapeDepth : OpcodeMap → UInt8
  | .oneByte => 0
  | .twoByte => 1
  | .threeByte38 => 2
  | .threeByte3A => 2

end OpcodeMap

/-- An opcode byte together with the map it is read in. -/
structure Opcode where
  map : OpcodeMap
  byte : UInt8
deriving DecidableEq, Repr

namespace Opcode

/-- The bytes that stand for an opcode: the escape bytes of its map, then its own. -/
def encoding (opcode : Opcode) : List UInt8 :=
  opcode.map.escapeBytes ++ [opcode.byte]

/-- The bytes of an opcode as text. -/
def text (opcode : Opcode) : String :=
  Hex.spaced opcode.encoding

/-- The lead byte that POP to memory shares with a family outside the four maps. -/
def pop : Opcode :=
  { map := .oneByte, byte := 0x8F }

end Opcode

end LongMode
