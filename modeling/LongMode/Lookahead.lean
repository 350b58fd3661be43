import LongMode.Cursor
import LongMode.LittleEndian

/-!
# Lookaheads

A lookahead reads forward from a cursor's position without moving the cursor.
It keeps the bytes it has not read as a list, so a stage of the decoder sees
its input as the head of that list; the place where it started, the count of
bytes read and the length of the region are kept for error reports only.
Every read is built on `take`, which reads nothing when it fails.
-/

namespace LongMode

/-- A forward reader over the bytes that follow a cursor's position. -/
structure Lookahead where
  /-- The position of the cursor the reader was taken from. -/
  start : Nat
  /-- How many bytes have been read. -/
  consumed : Nat
  /-- The length of the region. -/
  capacity : Nat
  /-- The bytes that have not been read. -/
  rest : List UInt8
deriving DecidableEq, Repr

/-- A lookahead at the cursor's position that has read nothing. -/
def Cursor.lookahead (cursor : Cursor) : Lookahead where
  start := cursor.position
  consumed := 0
  capacity := cursor.capacity
  rest := cursor.region.drop cursor.position

namespace Lookahead

/-- The refusal of `needed` bytes at the current place. -/
def outOfBounds (input : Lookahead) (needed : Nat) : OutOfBounds :=
  { offset := input.start + input.consumed, needed, capacity := input.capacity }

/-- The next byte, which stays unread. -/
def peek (input : Lookahead) : Except OutOfBounds UInt8 :=
  match input.rest with
  | byte :: _ => .ok byte
  | [] => .error (input.outOfBounds 1)

/-- Reads the next byte. -/
def next (input : Lookahead) : Except OutOfBounds (UInt8 × Lookahead) :=
  match input.rest with
  | byte :: rest => .ok (byte, { input with consumed := input.consumed + 1, rest })
  | [] => .error (input.outOfBounds 1)

/-- Reads the next `count` bytes. -/
def take (input : Lookahead) (count : Nat) : Except OutOfBounds (List UInt8 × Lookahead) :=
  let bytes := input.rest.take count
  if bytes.length = count then
    .ok (bytes,
      { input with consumed := input.consumed + count, rest := input.rest.drop count })
  else .error (input.outOfBounds count)

/-- Reads the next `count` bytes, at most eight, as a little-endian number. -/
def readLittleEndian (input : Lookahead) (count : Nat) :
    Except OutOfBounds (UInt64 × Lookahead) :=
  (input.take count).map fun (bytes, input) =>
    (UInt64.ofNat (LittleEndian.value bytes), input)

/-- Passes over the next `count` bytes. -/
def skip (input : Lookahead) (count : Nat) : Except OutOfBounds Lookahead :=
  (input.take count).map fun (_, input) => input

/-- Reading a byte is possible exactly when one is left, and takes the first. -/
theorem next_eq_ok_iff {input after : Lookahead} {byte : UInt8} :
    input.next = .ok (byte, after) ↔
      input.rest = byte :: after.rest ∧ after.consumed = input.consumed + 1 ∧
        after.start = input.start ∧ after.capacity = input.capacity := by
  obtain ⟨start, consumed, capacity, rest⟩ := input
  obtain ⟨start', consumed', capacity', rest'⟩ := after
  cases rest with
  | nil => simp [next]
  | cons head tail =>
      simp only [next, Except.ok.injEq, Prod.mk.injEq, mk.injEq, List.cons.injEq]
      constructor
      · intro h
        obtain ⟨rfl, rfl, rfl, rfl, rfl⟩ := h
        exact ⟨⟨rfl, rfl⟩, rfl, rfl, rfl⟩
      · intro h
        obtain ⟨⟨rfl, rfl⟩, rfl, rfl, rfl⟩ := h
        exact ⟨rfl, rfl, rfl, rfl, rfl⟩

/-- Reading `count` bytes is possible exactly when as many are left. -/
theorem take_eq_ok_iff {input after : Lookahead} {count : Nat} {bytes : List UInt8} :
    input.take count = .ok (bytes, after) ↔
      input.rest = bytes ++ after.rest ∧ bytes.length = count ∧
        after.consumed = input.consumed + count ∧
        after.start = input.start ∧ after.capacity = input.capacity := by
  rcases input with ⟨start, consumed, capacity, rest⟩
  rcases after with ⟨start', consumed', capacity', rest'⟩
  simp only [take]
  constructor
  · intro h
    split at h
    · simp only [Except.ok.injEq, Prod.mk.injEq, Lookahead.mk.injEq] at h
      obtain ⟨rfl, rfl, rfl, rfl, rfl⟩ := h
      exact ⟨(List.take_append_drop count rest).symm, by assumption, rfl, rfl, rfl⟩
    · cases h
  · rintro ⟨rfl, rfl, rfl, rfl, rfl⟩
    simp

end Lookahead

end LongMode
