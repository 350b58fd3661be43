import LongMode.Prefixes
import LongMode.Reader
import LongMode.Settings

/-!
# Scanning prefixes

The scan consumes prefix bytes up to the byte that has to be an opcode.  Under
the strict policy it also stops in front of a legacy prefix that follows a REX
prefix.  A run of prefixes that leaves no room for an opcode within the length
limit is malformed.
-/

namespace LongMode.Prefixes

/-- Scans on after `prefixes`, with room for `room` more bytes. -/
def scanFrom (policy : RexPolicy) (limit : Nat) : (room : Nat) → Prefixes → Reader Prefixes
  | 0, _ => do
      Reader.fail (.malformed (.tooLong ((← Reader.consumed) + 1) limit))
  | room + 1, prefixes => do
      let byte ← Reader.peek
      match LegacyPrefix.ofByte? byte with
      | some legacy =>
          if prefixes.rex.isSome ∧ policy = .strict then pure prefixes
          else do
            Reader.skipByte
            scanFrom policy limit room (prefixes.afterLegacy legacy)
      | none =>
          if Rex.isRex byte then do
            Reader.skipByte
            scanFrom policy limit room (prefixes.afterRex (Rex.ofByte byte))
          else pure prefixes

/-- Scans the prefixes of an instruction of at most `limit` bytes. -/
def scan (policy : RexPolicy) (limit : Nat) : Reader Prefixes := do
  scanFrom policy limit (limit - (← Reader.consumed)) {}

end LongMode.Prefixes
