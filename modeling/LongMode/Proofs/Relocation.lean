import LongMode.Proofs.Built
import LongMode.Proofs.Commit

/-!
# Decoding does not depend on what stands in front

A decode call sees the bytes from the cursor's position on. What stands before them in
the region moves the offsets in its error reports and nothing else: `Built.relocates`
shows it of every reader that is put together from elementary ones. In a truncation
report the offset is taken relative to the position again, so
`outcome_eq_decodeAt` can say that the outcome is that of the remaining bytes alone.
-/

namespace LongMode

/-- The refusal of the same bytes with `offset` more bytes in front of the region. -/
def OutOfBounds.shift (bounds : OutOfBounds) (offset : Nat) : OutOfBounds :=
  { bounds with offset := offset + bounds.offset, capacity := offset + bounds.capacity }

/-- The same fault with `offset` more bytes in front of the region. -/
def Fault.shift (fault : Fault) (offset : Nat) : Fault :=
  match fault with
  | .outOfBounds bounds => .outOfBounds (bounds.shift offset)
  | .malformed reason => .malformed reason
  | .prefixConflict byte => .prefixConflict byte

theorem Fault.IsDecisive.shift_eq {fault : Fault} (h : fault.IsDecisive) (offset : Nat) :
    fault.shift offset = fault := by
  cases fault with
  | outOfBounds bounds => exact absurd rfl (h bounds)
  | malformed reason => rfl
  | prefixConflict byte => rfl

namespace Lookahead

/-- The same place with `offset` more bytes in front of the region. -/
def shift (input : Lookahead) (offset : Nat) : Lookahead :=
  { input with start := offset + input.start, capacity := offset + input.capacity }

theorem outOfBounds_shift (input : Lookahead) (offset needed : Nat) :
    (input.shift offset).outOfBounds needed = (input.outOfBounds needed).shift offset := by
  simp only [outOfBounds, shift, OutOfBounds.shift, Nat.add_assoc]

end Lookahead

namespace Reader

variable {α β : Type}

/-- The result of a read with `offset` more bytes in front of the region. -/
def shiftRead (offset : Nat) :
    Except OutOfBounds (α × Lookahead) → Except OutOfBounds (α × Lookahead)
  | .ok (value, after) => .ok (value, after.shift offset)
  | .error bounds => .error (bounds.shift offset)

/-- The result of a reader with `offset` more bytes in front of the region. -/
def shiftResult (offset : Nat) :
    Except Fault (α × Lookahead) → Except Fault (α × Lookahead)
  | .ok (value, after) => .ok (value, after.shift offset)
  | .error fault => .error (fault.shift offset)

/-- `reader.Relocates` says that bytes in front of the region move the reports of the
reader and nothing else. -/
def Relocates (reader : Reader α) : Prop :=
  ∀ input offset, reader (input.shift offset) = shiftResult offset (reader input)

/-- A read of a lookahead relocates as a reader when it does as a read. -/
theorem relocates_ofRead {read : Lookahead → Except OutOfBounds (α × Lookahead)}
    (h : ∀ input offset, read (input.shift offset) = shiftRead offset (read input)) :
    Relocates (ofRead read) := by
  intro input offset
  unfold ofRead
  rw [h]
  cases read input with
  | ok result => rfl
  | error bounds => rfl

theorem relocates_peek : Relocates peek := by
  refine relocates_ofRead ?_
  intro input offset
  obtain ⟨start, consumed, capacity, rest⟩ := input
  cases rest with
  | nil => exact congrArg Except.error (Lookahead.outOfBounds_shift _ _ _)
  | cons first rest => rfl

theorem relocates_byte : Relocates byte := by
  refine relocates_ofRead ?_
  intro input offset
  obtain ⟨start, consumed, capacity, rest⟩ := input
  cases rest with
  | nil => exact congrArg Except.error (Lookahead.outOfBounds_shift _ _ _)
  | cons first rest => rfl

/-- Taking bytes relocates. -/
theorem take_shift (input : Lookahead) (offset count : Nat) :
    (input.shift offset).take count = shiftRead offset (input.take count) := by
  show (if (input.rest.take count).length = count then _ else _) = _
  unfold Lookahead.take
  by_cases hcount : (input.rest.take count).length = count
  · simp only [if_pos hcount]
    rfl
  · simp only [if_neg hcount]
    exact congrArg Except.error (Lookahead.outOfBounds_shift _ _ _)

theorem relocates_skipByte : Relocates skipByte := by
  refine relocates_ofRead ?_
  intro input offset
  unfold Lookahead.skip
  rw [take_shift]
  cases input.take 1 with
  | ok result => rfl
  | error bounds => rfl

theorem relocates_littleEndian (count : Nat) : Relocates (littleEndian count) := by
  refine relocates_ofRead ?_
  intro input offset
  unfold Lookahead.readLittleEndian
  rw [take_shift]
  cases input.take count with
  | ok result => rfl
  | error bounds => rfl

/-- A sequence relocates when both parts do. -/
theorem Relocates.bind {first : Reader α} {second : α → Reader β} (hfirst : Relocates first)
    (hsecond : ∀ value, Relocates (second value)) : Relocates (first >>= second) := by
  intro input offset
  rw [bind_apply, bind_apply, hfirst input offset]
  cases first input with
  | ok result => exact hsecond result.1 result.2 offset
  | error fault => rfl

/-- Every reader that is put together from elementary ones relocates. -/
theorem Built.relocates {reader : Reader α} (h : Built reader) : Relocates reader := by
  induction h with
  | pure value => exact fun _ _ => rfl
  | fail fault hdecisive =>
      exact fun _ offset => congrArg Except.error (hdecisive.shift_eq offset).symm
  | consumed => exact fun _ _ => rfl
  | peek => exact relocates_peek
  | byte => exact relocates_byte
  | skipByte => exact relocates_skipByte
  | littleEndian count _ => exact relocates_littleEndian count
  | bind first second _ _ hfirst hsecond => exact hfirst.bind hsecond

end Reader

/-! ## Decode calls at a position -/

/-- The cursor at the start of the bytes that another cursor has still to read. -/
def Cursor.remainder (cursor : Cursor) : Cursor :=
  .ofRegion (cursor.region.drop cursor.position) cursor.address

namespace Cursor

variable {cursor : Cursor}

theorem remaining_remainder : cursor.remainder.remaining = cursor.remaining := by
  simp [remainder, remaining, capacity, ofRegion]

theorem address_remainder : cursor.remainder.address = cursor.address :=
  address_ofRegion _ _

theorem position_remainder : cursor.remainder.position = 0 :=
  rfl

/-- The lookahead at a position is the one at the start of the remaining bytes, with the
bytes in front added. -/
theorem lookahead_eq_shift (h : cursor.position ≤ cursor.capacity) :
    cursor.lookahead = cursor.remainder.lookahead.shift cursor.position := by
  have hcapacity : cursor.position + (cursor.region.length - cursor.position) =
      cursor.region.length := Nat.add_sub_cancel' h
  simp [lookahead, Lookahead.shift, remainder, ofRegion, capacity, hcapacity]

/-- A cursor is at its end exactly when nothing remains. -/
theorem isAtEnd_eq_isAtEnd_remainder (h : cursor.position ≤ cursor.capacity) :
    cursor.isAtEnd = cursor.remainder.isAtEnd := by
  have h : cursor.position ≤ cursor.region.length := h
  rw [Bool.eq_iff_iff]
  simp only [isAtEnd, remainder, ofRegion, capacity, List.length_drop, beq_iff_eq]
  omega

end Cursor

/-- A fault means the same failure when it is reported from the start of the remaining
bytes: the needed bytes are counted from the position. -/
theorem Fault.toFailure_shift (settings : Settings) (cursor : Cursor) (fault : Fault) :
    (fault.shift cursor.position).toFailure settings cursor =
      fault.toFailure settings cursor.remainder := by
  cases fault with
  | outOfBounds bounds =>
      simp [Fault.shift, Fault.toFailure, OutOfBounds.shift, Cursor.remaining_remainder,
        Cursor.address_remainder, Cursor.position_remainder]
  | malformed reason => simp [Fault.shift, Fault.toFailure, Cursor.address_remainder]
  | prefixConflict byte => simp [Fault.shift, Fault.toFailure, Cursor.address_remainder]

/-- The outcome of a decode call is that of the remaining bytes at the cursor's address. -/
theorem outcome_eq_decodeAt (settings : Settings) {cursor : Cursor}
    (h : cursor.position ≤ cursor.capacity) :
    (decode settings cursor).outcome =
      decodeAt settings (cursor.region.drop cursor.position) cursor.address := by
  show _ = (decode settings cursor.remainder).outcome
  rw [outcome_decode, outcome_decode, Cursor.isAtEnd_eq_isAtEnd_remainder h,
    Cursor.address_remainder, Cursor.lookahead_eq_shift h,
    (built_readInstruction settings cursor.address).relocates]
  cases readInstruction settings cursor.address cursor.remainder.lookahead with
  | ok result => rfl
  | error fault => simp only [Reader.shiftResult, Fault.toFailure_shift]

end LongMode
