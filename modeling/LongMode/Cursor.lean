/-!
# Cursors

A cursor is a read position in an immutable byte region whose first byte lives
at a logical base address.  The position counts bytes from the start of the
region and may stand at its end.  Logical addresses wrap modulo `2 ^ 64`.

Every move is checked: a move past the end is refused with the number of bytes
that were asked for, and the cursor stays where it is.
-/

namespace LongMode

/-- A read or move that reaches past the end of a region. -/
structure OutOfBounds where
  /-- Where in the region the first requested byte would be. -/
  offset : Nat
  /-- How many bytes were requested. -/
  needed : Nat
  /-- The length of the region. -/
  capacity : Nat
deriving DecidableEq, Repr

/-- The wording of a refused read or move. -/
def OutOfBounds.message (bounds : OutOfBounds) : String :=
  toString bounds.needed ++ " byte(s) at offset " ++ toString bounds.offset
    ++ " exceed capacity " ++ toString bounds.capacity

/-- The sum of two 64-bit counts, if it is one as well. -/
def wordSum? (first second : Nat) : Option Nat :=
  if first + second < UInt64.size then some (first + second) else none

/-- The bytes of a region from `start` up to `stop`, if it has them all. -/
def slice? (region : List UInt8) (start stop : Nat) : Option (List UInt8) :=
  if start ≤ stop ∧ stop ≤ region.length then some ((region.drop start).take (stop - start))
  else none

/-- A read position in a byte region. -/
structure Cursor where
  region : List UInt8
  position : Nat
  /-- The logical address of the region's first byte. -/
  base : UInt64
deriving DecidableEq, Repr

namespace Cursor

/-- The cursor at the start of a region. -/
def ofRegion (region : List UInt8) (base : UInt64) : Cursor :=
  { region, position := 0, base }

/-- The length of the region. -/
def capacity (cursor : Cursor) : Nat :=
  cursor.region.length

/-- How many bytes are left between the position and the end of the region. -/
def remaining (cursor : Cursor) : Nat :=
  cursor.capacity - cursor.position

/-- Whether the position is the end of the region. -/
def isAtEnd (cursor : Cursor) : Bool :=
  cursor.position == cursor.capacity

/-- The logical address of the byte at the position. -/
def address (cursor : Cursor) : UInt64 :=
  cursor.base + UInt64.ofNat cursor.position

/-- The refusal of `needed` bytes at a place of this cursor's region. -/
def outOfBounds (cursor : Cursor) (offset needed : Nat) : OutOfBounds :=
  { offset, needed, capacity := cursor.capacity }

/-- The byte `offset` bytes past the position.  A place whose index does not fit
    in 64 bits is reported as the largest index that does. -/
def peek (cursor : Cursor) (offset : Nat) : Except OutOfBounds UInt8 :=
  let index := cursor.position + offset
  if index < UInt64.size then
    match cursor.region[index]? with
    | some byte => .ok byte
    | none => .error (cursor.outOfBounds index 1)
  else .error (cursor.outOfBounds (UInt64.size - 1) 1)

/-- The cursor `count` bytes further on. -/
def advance (cursor : Cursor) (count : Nat) : Except OutOfBounds Cursor :=
  if count ≤ cursor.remaining then
    .ok { cursor with position := cursor.position + count }
  else .error (cursor.outOfBounds cursor.position count)

/-- The cursor at the given place of the region. -/
def seek (cursor : Cursor) (position : Nat) : Except OutOfBounds Cursor :=
  if position ≤ cursor.capacity then .ok { cursor with position }
  else .error (cursor.outOfBounds position 0)

/-- An advance succeeds within the remaining bytes and uses up as many as asked. -/
theorem advance_eq_ok_iff {cursor moved : Cursor} {count : Nat} :
    cursor.advance count = .ok moved ↔
      count ≤ cursor.remaining ∧
        moved = { cursor with position := cursor.position + count } := by
  unfold advance
  split
  · simp_all [eq_comm]
  · simp_all [Nat.not_le.mpr]

/-- An advance leaves exactly the bytes it did not pass. -/
theorem remaining_of_advance {cursor moved : Cursor} {count : Nat}
    (h : cursor.advance count = .ok moved) :
    moved.remaining + count = cursor.remaining := by
  obtain ⟨fits, rfl⟩ := advance_eq_ok_iff.mp h
  simp only [remaining, capacity] at *
  omega

end Cursor

end LongMode
