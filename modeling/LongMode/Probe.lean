import LongMode.Decode

/-!
# Probes

A probe looks into a region with a cursor and, beside it, at most one
lookahead.  The two are independent: the lookahead starts at the cursor's
position and stays where it is when the cursor moves.  A request that fails
changes neither of them.
-/

namespace LongMode

/-- A cursor with at most one lookahead taken from it. -/
structure Probe where
  cursor : Cursor
  lookahead : Option Lookahead := none
deriving DecidableEq, Repr

namespace Probe

/-- What can be asked of a probe. -/
inductive Request where
  /-- The byte at a distance from the cursor. -/
  | peek (offset : Nat)
  | advance (count : Nat)
  | seek (position : Nat)
  | decode (settings : Settings)
  /-- Takes a new lookahead at the cursor. -/
  | look
  /-- The next byte of the lookahead, which stays unread. -/
  | lookPeek
  | lookNext
  /-- A little-endian number of the lookahead. -/
  | lookRead (count : Nat)
  | lookSkip (count : Nat)
deriving DecidableEq, Repr

/-- The answer to a request. -/
inductive Answer where
  | byte (value : UInt8)
  | number (value : UInt64)
  | position (value : Nat)
  | moved
  /-- Nothing is to be said: a lookahead was taken, or there is none to read from. -/
  | silent
  | decoded (outcome : Outcome)
  | refused (bounds : OutOfBounds)
deriving Repr

/-- Answers a read, which gives a value and the probe after it. -/
def settle {α : Type} (probe : Probe) (answer : α → Answer) :
    Except OutOfBounds (α × Probe) → Answer × Probe
  | .ok (value, after) => (answer value, after)
  | .error bounds => (.refused bounds, probe)

/-- Reads from the lookahead, if there is one. -/
def settleLookahead {α : Type} (probe : Probe) (answer : α → Answer)
    (read : Lookahead → Except OutOfBounds (α × Lookahead)) : Answer × Probe :=
  match probe.lookahead with
  | none => (.silent, probe)
  | some lookahead =>
      probe.settle answer <| (read lookahead).map fun (value, after) =>
        (value, { probe with lookahead := some after })

/-- Answers a request. -/
def serve (probe : Probe) : Request → Answer × Probe
  | .peek offset =>
      probe.settle .byte <| (probe.cursor.peek offset).map fun byte => (byte, probe)
  | .advance count =>
      probe.settle .position <| (probe.cursor.advance count).map fun cursor =>
        (cursor.position, { probe with cursor })
  | .seek position =>
      probe.settle (fun () => .moved) <| (probe.cursor.seek position).map fun cursor =>
        ((), { probe with cursor })
  | .decode settings =>
      let step := LongMode.decode settings probe.cursor
      (.decoded step.outcome, { probe with cursor := step.cursor })
  | .look => (.silent, { probe with lookahead := some probe.cursor.lookahead })
  | .lookPeek =>
      probe.settleLookahead .byte fun lookahead =>
        lookahead.peek.map fun byte => (byte, lookahead)
  | .lookNext => probe.settleLookahead .byte Lookahead.next
  | .lookRead count =>
      probe.settleLookahead .number fun lookahead => lookahead.readLittleEndian count
  | .lookSkip count =>
      probe.settleLookahead (fun () => .moved) fun lookahead =>
        (lookahead.skip count).map fun after => ((), after)

end Probe

end LongMode
