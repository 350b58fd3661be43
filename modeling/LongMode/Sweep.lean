import LongMode.Decode.Progress

/-!
# Sweeps

A sweep gives the instructions at a cursor one by one, up to the first failed
decode call.  It then stays stopped, keeps the failure, and gives nothing more
until it is moved to another place.
-/

namespace LongMode

/-- A sequence of instructions that is decoded on demand. -/
structure Sweep where
  settings : Settings
  cursor : Cursor
  /-- The failure that stopped the sweep. -/
  stopped : Option Failure := none
deriving DecidableEq, Repr

namespace Sweep

/-- Success while the sweep can go on, otherwise the status of its failure. -/
def status (sweep : Sweep) : Status :=
  match sweep.stopped with
  | some failure => failure.status
  | none => .success

/-- The least and the greatest number of instructions that may follow. -/
def sizeBounds (sweep : Sweep) : Nat × Nat :=
  match sweep.stopped with
  | some _ => (0, 0)
  | none => (0, sweep.cursor.remaining)

/-- Gives the next instruction, or stops. -/
def next (sweep : Sweep) : Option Instruction × Sweep :=
  match sweep.stopped with
  | some _ => (none, sweep)
  | none =>
      let step := decode sweep.settings sweep.cursor
      match step.outcome with
      | .ok instruction => (some instruction, { sweep with cursor := step.cursor })
      | .error failure => (none, { sweep with cursor := step.cursor, stopped := some failure })

/-- Gives the next instructions, at most `count` of them. -/
def take : (count : Nat) → Sweep → List Instruction × Sweep
  | 0, sweep => ([], sweep)
  | count + 1, sweep =>
      match sweep.next with
      | (none, after) => ([], after)
      | (some instruction, after) =>
          let (following, last) := take count after
          (instruction :: following, last)

/-- An instruction that is given leaves fewer bytes than there were. -/
theorem remaining_next_lt {sweep after : Sweep} {instruction : Instruction}
    (h : sweep.next = (some instruction, after)) :
    after.cursor.remaining < sweep.cursor.remaining := by
  unfold next at h
  split at h
  · cases h
  · dsimp only at h
    split at h
    · rename_i houtcome
      cases h
      exact remaining_decode_lt houtcome
    · cases h

set_option linter.unusedVariables false in
/-- Gives all instructions up to the stop. -/
def drain (sweep : Sweep) : List Instruction × Sweep :=
  match h : sweep.next with
  | (none, after) => ([], after)
  | (some instruction, after) =>
      let (following, last) := drain after
      (instruction :: following, last)
termination_by sweep.cursor.remaining
decreasing_by exact remaining_next_lt h

/-- Passes over `count` bytes and lets the sweep go on. -/
def skip (sweep : Sweep) (count : Nat) : Except OutOfBounds Sweep :=
  (sweep.cursor.advance count).map fun cursor => { sweep with cursor, stopped := none }

/-- Moves to a place of the region and lets the sweep go on. -/
def seek (sweep : Sweep) (position : Nat) : Except OutOfBounds Sweep :=
  (sweep.cursor.seek position).map fun cursor => { sweep with cursor, stopped := none }

/-! ## Requests -/

/-- What can be asked of a sweep. -/
inductive Request where
  | next
  | take (count : Nat)
  | drain
  | skip (count : Nat)
  | seek (position : Nat)
deriving DecidableEq, Repr

/-- The answer to a request. -/
inductive Answer where
  | next (instruction : Option Instruction)
  | taken (instructions : List Instruction)
  | drained (count : Nat)
  | moved
  | refused (bounds : OutOfBounds)
deriving DecidableEq, Repr

/-- The sweep after a move that may have been refused. -/
def settle (sweep : Sweep) : Except OutOfBounds Sweep → Answer × Sweep
  | .ok moved => (.moved, moved)
  | .error bounds => (.refused bounds, sweep)

/-- Answers a request.  A refused move changes nothing. -/
def serve (sweep : Sweep) : Request → Answer × Sweep
  | .next =>
      let (instruction, after) := sweep.next
      (.next instruction, after)
  | .take count =>
      let (instructions, after) := take count sweep
      (.taken instructions, after)
  | .drain =>
      let (instructions, after) := sweep.drain
      (.drained instructions.length, after)
  | .skip count => sweep.settle (sweep.skip count)
  | .seek position => sweep.settle (sweep.seek position)

end Sweep

/-- The sweep over the instructions at a cursor. -/
def Cursor.sweep (cursor : Cursor) (settings : Settings) : Sweep :=
  { settings, cursor }

end LongMode
