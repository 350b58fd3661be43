import LongMode.Block
import LongMode.Sweep

/-!
# The decoder with every operation checked

On a machine, places and counts are words, an opcode is an index into a table, and a read goes
from one index of the region to another. Here the decoder is written down with these
operations, and every one that can go wrong is checked: a sum that does not fit in its word, a
difference below zero, an index outside its table, an assertion that does not hold and a loop
that does not get on all stop the run with a `Breach`. A word of 64 bits is a natural number
that a check keeps below `2 ^ 64`.

That no check ever fails, and that the checked decoder does what the decoder does, is shown in
`LongMode.Proofs.ChecksHold`.
-/

namespace LongMode.Checked

/-- A check that failed. -/
inductive Breach where
  /-- A sum does not fit in its word. -/
  | overflow
  /-- A difference is below zero. -/
  | underflow
  /-- An index lies outside its table. -/
  | index
  /-- Something that was relied on does not hold. -/
  | assertion
  /-- A loop does not get on. -/
  | endless
deriving DecidableEq, Repr

/-! ## Words -/

/-- The sum of two 64-bit words. -/
def add (first second : Nat) : Except Breach Nat :=
  if first + second < UInt64.size then .ok (first + second) else .error .overflow

/-- The difference of two words. -/
def sub (first second : Nat) : Except Breach Nat :=
  if second ≤ first then .ok (first - second) else .error .underflow

/-- The count after a count of eight bits. -/
def increment (count : UInt8) : Except Breach UInt8 :=
  if count.toNat + 1 < UInt8.size then .ok (count + 1) else .error .overflow

/-- Relies on a condition. -/
def require (condition : Prop) [Decidable condition] : Except Breach Unit :=
  if condition then .ok () else .error .assertion

/-! ## Lookaheads -/

/-- A forward reader over a whole region, by indices. -/
structure Lookahead where
  region : List UInt8
  /-- The position of the cursor the reader was taken from. -/
  start : Nat
  /-- How many bytes have been read. -/
  offset : Nat
deriving DecidableEq, Repr

/-- What a read of a lookahead gives. -/
abbrev ReadResult (α : Type) : Type :=
  Except OutOfBounds (α × Lookahead)

namespace Lookahead

/-- The refusal of `needed` bytes at the current place. -/
def outOfBounds (input : Lookahead) (needed : Nat) : Except Breach OutOfBounds := do
  let offset ← add input.start input.offset
  pure { offset, needed, capacity := input.region.length }

/-- The next byte, which stays unread. -/
def peek (input : Lookahead) : Except Breach (ReadResult UInt8) := do
  let index ← add input.start input.offset
  match input.region[index]? with
  | some byte => pure (.ok (byte, input))
  | none => .error <$> input.outOfBounds 1

/-- Reads the next byte. -/
def next (input : Lookahead) : Except Breach (ReadResult UInt8) := do
  match ← input.peek with
  | .error bounds => pure (.error bounds)
  | .ok (byte, _) =>
      let offset ← add input.offset 1
      pure (.ok (byte, { input with offset }))

/-- The number of some bytes, of which the last one is shifted in first. -/
def gather (bytes : List UInt8) : UInt64 :=
  bytes.reverse.foldl (fun number byte => (number <<< (8 : UInt64)) ||| byte.toUInt64) 0

/-- Reads the next `count` bytes as a little-endian number. It relies on there being at most
    eight. -/
def readLittleEndian (input : Lookahead) (count : Nat) : Except Breach (ReadResult UInt64) := do
  require (count ≤ 8)
  let first ← add input.start input.offset
  let stop ← add first count
  match slice? input.region first stop with
  | none => .error <$> input.outOfBounds count
  | some bytes =>
      let offset ← add input.offset count
      pure (.ok (gather bytes, { input with offset }))

/-- Passes over the next `count` bytes. -/
def skip (input : Lookahead) (count : Nat) : Except Breach (ReadResult Unit) := do
  let first ← add input.start input.offset
  let stop ← add first count
  if input.region.length < stop then .error <$> input.outOfBounds count
  else
    let offset ← add input.offset count
    pure (.ok ((), { input with offset }))

end Lookahead

/-! ## Readers -/

/-- A computation that reads bytes of a lookahead and may fail, or breach a check. -/
abbrev Reader (α : Type) : Type :=
  StateT Lookahead (ExceptT Fault (Except Breach)) α

namespace Reader

variable {α : Type}

/-- Fails with the given fault. -/
def fail (fault : Fault) : Reader α :=
  fun _ => .ok (.error fault)

/-- Gives the value of a checked operation that reads nothing. -/
def check (operation : Except Breach α) : Reader α :=
  fun input => operation.map fun value => .ok (value, input)

/-- Takes a refused read of a lookahead for a fault. -/
def ofRead (read : Lookahead → Except Breach (ReadResult α)) : Reader α :=
  fun input => (read input).map fun
    | .ok result => .ok result
    | .error bounds => .error (.outOfBounds bounds)

/-- The next byte, which stays unread. -/
def peek : Reader UInt8 :=
  ofRead Lookahead.peek

/-- Reads the next byte. -/
def byte : Reader UInt8 :=
  ofRead Lookahead.next

/-- Reads a little-endian number of `count` bytes. -/
def littleEndian (count : Nat) : Reader UInt64 :=
  ofRead fun input => input.readLittleEndian count

/-- Passes over a byte that was looked at. It relies on the byte being there. -/
def pass : Reader Unit :=
  fun input => (input.skip 1).bind fun
    | .ok result => .ok (.ok result)
    | .error _ => .error .assertion

/-- How many bytes have been read. -/
def consumed : Reader Nat :=
  fun input => .ok (.ok (input.offset, input))

end Reader

/-! ## Stages -/

/-- The prefixes with the effect of one more byte, which is not counted yet, or `none` where the
    scan stops. -/
def absorb? (policy : RexPolicy) (prefixes : Prefixes) (byte : UInt8) : Option Prefixes :=
  match LegacyPrefix.ofByte? byte with
  | some legacy =>
      if prefixes.rex.isSome ∧ policy = .strict then none
      else some { prefixes.apply legacy with rex := none }
  | none =>
      if Rex.isRex byte then some { prefixes with rex := some (Rex.ofByte byte) } else none

/-- Scans on after `prefixes`, in at most `rounds` rounds. -/
def scanFrom (policy : RexPolicy) (limit : Nat) : (rounds : Nat) → Prefixes → Reader Prefixes
  | 0, _ => Reader.check (.error .endless)
  | rounds + 1, prefixes => do
      let consumed ← Reader.consumed
      if limit ≤ consumed then do
        let length ← Reader.check (add consumed 1)
        Reader.fail (.malformed (.tooLong length limit))
      else do
        let byte ← Reader.peek
        match absorb? policy prefixes byte with
        | none => pure prefixes
        | some absorbed => do
            Reader.pass
            let count ← Reader.check (increment prefixes.count)
            scanFrom policy limit rounds { absorbed with count }

/-- Scans the prefixes of an instruction of at most `limit` bytes. A limit allows as many
    prefixes and one round that finds it reached. -/
def scan (policy : RexPolicy) (limit : Nat) : Reader Prefixes :=
  scanFrom policy limit (limit + 1) {}

/-- Reads the escape bytes and the opcode. -/
def readOpcode : Reader Opcode := do
  let first ← Reader.byte
  if first ≠ 0x0F then pure { map := .oneByte, byte := first }
  else do
    let second ← Reader.byte
    if second = 0x38 then do
      let third ← Reader.byte
      pure { map := .threeByte38, byte := third }
    else if second = 0x3A then do
      let third ← Reader.byte
      pure { map := .threeByte3A, byte := third }
    else pure { map := .twoByte, byte := second }

/-- The entries of a map, one for each opcode byte. -/
def table (map : OpcodeMap) : List Entry :=
  (List.range UInt8.size).map fun byte => Opcode.entry { map, byte := UInt8.ofNat byte }

/-- The table entry of an opcode. -/
def entry (opcode : Opcode) : Except Breach Entry :=
  match (table opcode.map)[opcode.byte.toNat]? with
  | some entry => .ok entry
  | none => .error .index

/-- The layout of a defined opcode, or the fault of any other. -/
def readLayout (opcode : Opcode) : Reader Layout := do
  let entry ← Reader.check (entry opcode)
  match entry.kind with
  | .defined => pure { modrm := entry.modrm, immediate := entry.immediate }
  | .prefixByte => Reader.fail (.prefixConflict opcode.byte)
  | .unsupported => Reader.fail (.malformed (.unsupported opcode.byte))
  | .invalid => Reader.fail (.malformed (.unmappedOpcode opcode))
  | .escape => Reader.fail (.malformed (.unmappedOpcode opcode))

/-- Refuses a POP whose next byte has a reg field other than 0. -/
def checkPop (opcode : Opcode) : Reader Unit := do
  if opcode = .pop then do
    let byte ← Reader.peek
    if OperandByte.middle byte ≠ 0 then Reader.fail (.malformed (.unsupported Opcode.pop.byte))
    else pure ()
  else pure ()

/-- Reads the SIB byte, where ModR/M asks for one. -/
def readSib (modrm : ModRM) (rex : Rex) : Reader (Option Sib) := do
  if modrm.needsSib then
    let byte ← Reader.byte
    pure (some (Sib.ofByte byte rex))
  else pure none

/-- Reads a displacement, extended by its sign. -/
def readDisplacement : DisplacementSize → Reader (Option Int32)
  | .absent => pure none
  | .byte => do
      let byte ← Reader.byte
      pure (some byte.toInt8.toInt32)
  | .doubleword => do
      let number ← Reader.littleEndian 4
      pure (some number.toUInt32.toInt32)

/-- Reads the ModR/M byte, the SIB byte and the displacement. -/
def readAddressing (rex : Rex) (usage : ModRMUsage) : Reader (Addressing × Option Int32) := do
  let byte ← Reader.byte
  let modrm := ModRM.ofByte byte rex
  if usage = .registerOnly ∨ modrm.isRegister then pure (.ofRegister modrm, none)
  else do
    let sib ← readSib modrm rex
    let addressing := Addressing.ofMemory modrm sib
    let displacement ← readDisplacement addressing.displacementSize
    pure (addressing, displacement)

/-- Reads the ModR/M byte and what belongs to it, where the opcode takes one. -/
def readOperands (prefixes : Prefixes) :
    ModRMUsage → Reader (Option Addressing × Option Int32)
  | .absent => pure (none, none)
  | usage => do
      let (addressing, displacement) ← readAddressing prefixes.rexOrClear usage
      pure (some addressing, displacement)

/-- Reads an immediate of the given kind, where it has bytes. -/
def readImmediate (kind : ImmediateKind) (prefixes : Prefixes)
    (addressing : Option Addressing) : Reader (Option Immediate) := do
  let size := kind.size prefixes addressing
  if size = 0 then pure none
  else do
    let value ← Reader.littleEndian size
    pure (some { value, size := UInt8.ofNat size })

/-- Reads an instruction that starts at the given address. -/
def readInstruction (settings : Settings) (address : UInt64) : Reader Instruction := do
  let limit := settings.lengthLimit
  let prefixes ← scan settings.rexPolicy limit
  let opcode ← readOpcode
  let layout ← readLayout opcode
  checkPop opcode
  let (addressing, displacement) ← readOperands prefixes layout.modrm
  let immediate ← readImmediate layout.immediate prefixes addressing
  let length ← Reader.consumed
  if limit < length then Reader.fail (.malformed (.tooLong length limit))
  else pure { address, length, opcode, prefixes, addressing, displacement, immediate }

/-! ## Decode calls -/

/-- How many bytes are left between the position and the end of the region. -/
def remaining (cursor : Cursor) : Except Breach Nat :=
  sub cursor.capacity cursor.position

/-- The cursor `count` bytes further on. -/
def advance (cursor : Cursor) (count : Nat) : Except Breach (Except OutOfBounds Cursor) := do
  let left ← remaining cursor
  if left < count then pure (.error (cursor.outOfBounds cursor.position count))
  else
    let position ← add cursor.position count
    pure (.ok { cursor with position })

/-- A lookahead at the cursor's position that has read nothing. -/
def lookahead (cursor : Cursor) : Lookahead where
  region := cursor.region
  start := cursor.position
  offset := 0

/-- Why a decode call at the given cursor fails with a fault. -/
def cause (settings : Settings) (cursor : Cursor) : Fault → Except Breach Cause
  | .outOfBounds bounds =>
      if settings.reportTruncation then do
        let needed ← add (bounds.offset - cursor.position) bounds.needed
        let available ← remaining cursor
        pure (.truncated needed available)
      else pure .endOfInput
  | .malformed reason => pure (.malformed reason)
  | .prefixConflict byte => pure (.prefixConflict byte)

/-- Decodes the instruction at a cursor and moves the cursor past it. -/
def decode (settings : Settings) (cursor : Cursor) : Except Breach Decoded := do
  let atEnd : Failure := { address := cursor.address, cause := .endOfInput }
  if cursor.isAtEnd then pure { outcome := .error atEnd, cursor, events := [] }
  else
    match ← readInstruction settings cursor.address (lookahead cursor) with
    | .error fault =>
        let cause ← cause settings cursor fault
        let failure : Failure := { address := cursor.address, cause }
        pure { outcome := .error failure, cursor, events := [.failed failure] }
    | .ok (instruction, _) =>
        match ← advance cursor instruction.length with
        | .error _ => pure { outcome := .error atEnd, cursor, events := [] }
        | .ok moved =>
            pure { outcome := .ok instruction, cursor := moved, events := [.decoded instruction] }

/-! ## Loops -/

/-- The decode calls that cover a region from a cursor to its end. Every round has to leave
    fewer bytes than there were. -/
def decodeSteps (settings : Settings) (cursor : Cursor) : Except Breach (List Decoded) :=
  if cursor.isAtEnd then .ok []
  else do
    let step ← decode settings cursor
    match step.outcome with
    | .ok _ =>
        if _ : step.cursor.remaining < cursor.remaining then
          let following ← decodeSteps settings step.cursor
          pure (step :: following)
        else .error .endless
    | .error failure =>
        if failure.isResynchronizable then
          match ← advance step.cursor 1 with
          | .ok next =>
              if _ : next.remaining < cursor.remaining then
                let following ← decodeSteps settings next
                pure (step :: following)
              else .error .endless
          | .error _ => pure [step]
        else pure [step]
termination_by cursor.remaining

/-- The results of decoding a whole block that lives at `address`. -/
def decodeAll (settings : Settings) (bytes : List UInt8) (address : UInt64) :
    Except Breach (List Outcome) := do
  let steps ← decodeSteps settings (.ofRegion bytes address)
  pure (steps.map (·.outcome))

/-! ## Sweeps -/

/-- The least and the greatest number of instructions that may follow. -/
def sizeBounds (sweep : Sweep) : Except Breach (Nat × Nat) :=
  match sweep.stopped with
  | some _ => pure (0, 0)
  | none => do
      let left ← remaining sweep.cursor
      pure (0, left)

/-- Gives the next instruction, or stops. -/
def next (sweep : Sweep) : Except Breach (Option Instruction × Sweep) :=
  match sweep.stopped with
  | some _ => pure (none, sweep)
  | none => do
      let step ← decode sweep.settings sweep.cursor
      match step.outcome with
      | .ok instruction => pure (some instruction, { sweep with cursor := step.cursor })
      | .error failure =>
          pure (none, { sweep with cursor := step.cursor, stopped := some failure })

/-- Gives the next instructions, at most `count` of them. -/
def take : (count : Nat) → Sweep → Except Breach (List Instruction × Sweep)
  | 0, sweep => pure ([], sweep)
  | count + 1, sweep => do
      match ← next sweep with
      | (none, after) => pure ([], after)
      | (some instruction, after) =>
          let (following, last) ← take count after
          pure (instruction :: following, last)

/-- Gives all instructions up to the stop. Each of them has to leave fewer bytes than there
    were. -/
def drain (sweep : Sweep) : Except Breach (List Instruction × Sweep) := do
  match ← next sweep with
  | (none, after) => pure ([], after)
  | (some instruction, after) =>
      if _ : after.cursor.remaining < sweep.cursor.remaining then
        let (following, last) ← drain after
        pure (instruction :: following, last)
      else .error .endless
termination_by sweep.cursor.remaining

/-- Answers a request. A refused move changes nothing. -/
def serve (sweep : Sweep) : Sweep.Request → Except Breach (Sweep.Answer × Sweep)
  | .next => do
      let (instruction, after) ← next sweep
      pure (.next instruction, after)
  | .take count => do
      let (instructions, after) ← take count sweep
      pure (.taken instructions, after)
  | .drain => do
      let (instructions, after) ← drain sweep
      pure (.drained instructions.length, after)
  | .skip count => do
      match ← advance sweep.cursor count with
      | .ok cursor => pure (.moved, { sweep with cursor, stopped := none })
      | .error bounds => pure (.refused bounds, sweep)
  | .seek position =>
      match sweep.cursor.seek position with
      | .ok cursor => pure (.moved, { sweep with cursor, stopped := none })
      | .error bounds => pure (.refused bounds, sweep)

/-- The sweep that a sequence of requests leads to. -/
def serveAll (sweep : Sweep) : List Sweep.Request → Except Breach Sweep
  | [] => pure sweep
  | request :: requests => do
      let (_, after) ← serve sweep request
      serveAll after requests

end LongMode.Checked
