import LongMode.CommandLine.Options
import LongMode.Decode.Progress
import LongMode.HexDump
import LongMode.Json.Status

/-!
# Running over a file

A run decodes a file from its first byte until a failure ends it.  It keeps
what it did as a list of items and counts them on the way; the text report and
the JSON report are two ways to show the list and the counts.
-/

namespace LongMode.CommandLine

/-- One step of a run. -/
inductive Item where
  | decoded (instruction : Instruction)
  /-- A byte was passed over after this failure. -/
  | skipped (failure : Failure)
deriving DecidableEq, Repr

namespace Item

/-- The instruction of a step. -/
def instruction? : Item → Option Instruction
  | .decoded instruction => some instruction
  | .skipped _ => none

/-- The failure a byte was passed over for. -/
def skipped? : Item → Option Failure
  | .decoded _ => none
  | .skipped failure => some failure

end Item

/-- What a run counts on its way. -/
structure Tally where
  /-- How many instructions were decoded. -/
  decoded : Nat := 0
  /-- How many bytes were passed over. -/
  skipped : Nat := 0
deriving DecidableEq, Repr

/-- What a run did, and what ended it. -/
structure Run where
  items : List Item
  last : Failure
  /-- What was reported on the way, in order. -/
  events : List Event
  /-- What was counted up to the end. -/
  tally : Tally := {}
deriving DecidableEq, Repr

namespace Run

/-- The run with one more step in front of it. -/
def after (run : Run) (item : Item) (events : List Event) : Run :=
  { run with items := item :: run.items, events := events ++ run.events }

/-- The instructions of a run. -/
def instructions (run : Run) : List Instruction :=
  run.items.filterMap Item.instruction?

/-- The failures after which a byte was passed over. -/
def skips (run : Run) : List Failure :=
  run.items.filterMap Item.skipped?

end Run

set_option linter.unusedVariables false in
/-- Decodes from a cursor on, after what `tally` has counted.  With `resync` a
    failure that allows it costs one byte; any other failure ends the run. -/
def run (settings : Settings) (resync : Bool) (cursor : Cursor) (tally : Tally := {}) :
    Except Error Run :=
  let step := decode settings cursor
  match h : step.outcome with
  | .ok instruction =>
      let counted := { tally with decoded := tally.decoded + 1 }
      (run settings resync step.cursor counted).map fun rest =>
        rest.after (.decoded instruction) step.events
  | .error failure =>
      if resync && failure.isResynchronizable then
        match hskip : step.cursor.advance 1 with
        | .ok next =>
            let counted := { tally with skipped := tally.skipped + 1 }
            (run settings resync next counted).map fun rest =>
              rest.after (.skipped failure) (step.events ++ [.skipping failure])
        | .error _ => .error (.unskippable failure.address)
      else .ok { items := [], last := failure, events := step.events, tally }
termination_by cursor.remaining
decreasing_by
  · exact remaining_decode_lt h
  · have skipped := Cursor.remaining_of_advance hskip
    have kept : step.cursor.remaining ≤ cursor.remaining := remaining_decode_le settings cursor
    omega

/-! ## Reports -/

/-- The text line of a step. -/
def Item.line : Item → String
  | .decoded instruction =>
      "rip: " ++ Hex.padded 4 instruction.address.toNat
        ++ ", opcode: " ++ Hex.byte instruction.opcode.byte
        ++ ", escape: " ++ toString instruction.escapeDepth.toNat
  | .skipped failure =>
      "skip: " ++ Hex.padded 4 failure.address.toNat ++ " (" ++ failure.status.text ++ ")"

/-- The JSON line of an instruction, with its bytes in the file. -/
def instructionJson (base : UInt64) (data : List UInt8) (instruction : Instruction) : Json :=
  let bytes := ((instruction.bytes? data base).map Hex.spaced).getD ""
  .obj [
    ("rip", toJson instruction.address),
    ("opcode", toJson instruction.opcode.byte),
    ("escape", toJson instruction.escapeDepth),
    ("length", toJson instruction.length),
    ("bytes", .str bytes),
    ("instruction", toJson instruction)]

namespace Run

/-- The text lines of a run. -/
def textLines (run : Run) (resync : Bool) : List String :=
  let status := run.last.status
  run.items.map Item.line
    ++ (if status.isEndOfInput then [] else ["error: " ++ run.last.message])
    ++ (if resync then ["skipped bytes: " ++ toString run.tally.skipped] else [])
    ++ ["instructions: " ++ toString run.tally.decoded,
      "status: " ++ status.text,
      "last status code: " ++ toString status.code]

/-- The last JSON line of a run. -/
def summaryJson (run : Run) : Json :=
  let status := run.last.status
  .obj [
    ("status", toJson status),
    ("code", toJson status.code),
    ("instructions", toJson run.tally.decoded),
    ("skipped", toJson run.tally.skipped)]

/-- The JSON lines of a run over a file. -/
def jsonLines (run : Run) (base : UInt64) (data : List UInt8) : List String :=
  (run.instructions.map (instructionJson base data) ++ [run.summaryJson]).map Json.render

end Run

/-- What a run shows: its lines, and the events of the levels asked for. -/
structure Output where
  lines : List String
  events : List Event
deriving DecidableEq, Repr

/-- What decoding a file shows.  No contents stand for a file that cannot be read. -/
def respond (options : Options) (contents : Option (List UInt8)) : Except Error Output :=
  match contents with
  | none => .error (.unreadable options.file)
  | some data => do
      let run ← run options.settings options.resync (.ofRegion data options.base)
      let dump := if options.dump then HexDump.lines options.base data else []
      let report :=
        if options.json then run.jsonLines options.base data else run.textLines options.resync
      let events := .fileRead data.length options.file :: run.events
      .ok { lines := dump ++ report, events := Event.upTo options.level events }

end LongMode.CommandLine
