import LongMode.Event
import LongMode.Opcode.Resolve
import LongMode.Prefixes.Scan

/-!
# Decoding one instruction

`readInstruction` reads the fields of an instruction from a lookahead.
`decode` does so at a cursor and, when all fields are there, moves the cursor
past them in one step; after a failure the cursor stands where it stood.
-/

namespace LongMode

/-- Reads the ModR/M byte and what belongs to it, where the opcode takes one. -/
def readOperands (prefixes : Prefixes) :
    ModRMUsage → Reader (Option Addressing × Option Int32)
  | .absent => pure (none, none)
  | usage => do
      let (addressing, displacement) ← Addressing.read prefixes.rexOrClear usage
      pure (some addressing, displacement)

/-- Reads an instruction that starts at the given address. -/
def readInstruction (settings : Settings) (address : UInt64) : Reader Instruction := do
  let limit := settings.lengthLimit
  let prefixes ← Prefixes.scan settings.rexPolicy limit
  let opcode ← Opcode.read
  let layout ← Reader.ofExcept opcode.layout
  opcode.checkPop
  let (addressing, displacement) ← readOperands prefixes layout.modrm
  let immediate ← Immediate.read layout.immediate prefixes addressing
  let length ← Reader.consumed
  if limit < length then Reader.fail (.malformed (.tooLong length limit))
  else pure { address, length, opcode, prefixes, addressing, displacement, immediate }

/-- The result of a decode call. -/
abbrev Outcome : Type :=
  Except Failure Instruction

/-- What a decode call leaves behind. -/
structure Decoded where
  outcome : Outcome
  /-- The cursor after the call. -/
  cursor : Cursor
  /-- What the call reported, in order. -/
  events : List Event
deriving Repr

/-- The failure a fault means for a call at the given cursor. -/
def Fault.toFailure (settings : Settings) (cursor : Cursor) (fault : Fault) : Failure where
  address := cursor.address
  cause :=
    match fault with
    | .outOfBounds bounds =>
        if settings.reportTruncation then
          .truncated (bounds.offset - cursor.position + bounds.needed) cursor.remaining
        else .endOfInput
    | .malformed reason => .malformed reason
    | .prefixConflict byte => .prefixConflict byte

/-- Decodes the instruction at a cursor and moves the cursor past it. -/
def decode (settings : Settings) (cursor : Cursor) : Decoded :=
  let atEnd : Failure := { address := cursor.address, cause := .endOfInput }
  if cursor.isAtEnd then { outcome := .error atEnd, cursor, events := [] }
  else
    match readInstruction settings cursor.address cursor.lookahead with
    | .error fault =>
        let failure := fault.toFailure settings cursor
        { outcome := .error failure, cursor, events := [.failed failure] }
    | .ok (instruction, _) =>
        match cursor.advance instruction.length with
        | .error _ => { outcome := .error atEnd, cursor, events := [] }
        | .ok moved =>
            { outcome := .ok instruction, cursor := moved, events := [.decoded instruction] }

/-- Decodes the instruction at the start of a byte string that lives at `address`. -/
def decodeAt (settings : Settings) (bytes : List UInt8) (address : UInt64) : Outcome :=
  (decode settings (.ofRegion bytes address)).outcome

end LongMode
