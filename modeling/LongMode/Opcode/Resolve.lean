import LongMode.Opcode.Table
import LongMode.Reader

/-!
# Resolving opcodes

Escape bytes are recognised by position: after the prefixes, `0F` always leads
to another map.  The table entry of the opcode then gives the layout of what
follows, or the fault that ends the decode call.
-/

namespace LongMode

/-- What follows a defined opcode. -/
structure Layout where
  modrm : ModRMUsage
  immediate : ImmediateKind
deriving DecidableEq, Repr

namespace Opcode

/-- Reads the escape bytes and the opcode. -/
def read : Reader Opcode := do
  let first ← Reader.byte
  if first ≠ 0x0F then pure { map := .oneByte, byte := first }
  else do
    let second ← Reader.byte
    if second = 0x38 then do
      let third ← Reader.byte
      pure { map := .threeByte38, byte := third }
    else if second = 0x3A then do
      let third ← Reader.byte
      pure { map := .threeByte3A, byte := third }
    else pure { map := .twoByte, byte := second }

/-- The layout of a defined opcode, or the fault of any other. -/
def layout (opcode : Opcode) : Except Fault Layout :=
  let entry := opcode.entry
  match entry.kind with
  | .defined => .ok { modrm := entry.modrm, immediate := entry.immediate }
  | .prefixByte => .error (.prefixConflict opcode.byte)
  | .unsupported => .error (.malformed (.unsupported opcode.byte))
  | .invalid => .error (.malformed (.unmappedOpcode opcode))
  | .escape => .error (.malformed (.unmappedOpcode opcode))

/-- Refuses a POP whose next byte has a reg field other than 0: there the lead
    byte belongs to an encoding family outside the four maps. -/
def checkPop (opcode : Opcode) : Reader Unit := do
  if opcode = pop then do
    let byte ← Reader.peek
    if OperandByte.middle byte ≠ 0 then Reader.fail (.malformed (.unsupported pop.byte))
    else pure ()
  else pure ()

end Opcode

end LongMode
