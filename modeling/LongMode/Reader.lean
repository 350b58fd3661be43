import LongMode.Failure
import LongMode.Lookahead

/-!
# Decoder stages

Each stage of the decoder is a `Reader`: it consumes bytes of a lookahead and
gives a value or a fault.  Stages are put together with the operations of a
monad, and a fault in one of them ends the whole reading.  The lemmas say what
a sequence of two stages does.
-/

namespace LongMode

/-- A computation that reads bytes of a lookahead and may fail. -/
abbrev Reader (α : Type) : Type :=
  StateT Lookahead (Except Fault) α

namespace Reader

variable {α β : Type}

/-- Fails with the given fault. -/
def fail (fault : Fault) : Reader α :=
  fun _ => .error fault

/-- Gives the value of a computation that reads nothing. -/
def ofExcept : Except Fault α → Reader α
  | .ok value => pure value
  | .error fault => fail fault

/-- Takes a refused read of a lookahead for a fault. -/
def ofRead (read : Lookahead → Except OutOfBounds (α × Lookahead)) : Reader α :=
  fun input =>
    match read input with
    | .ok result => .ok result
    | .error bounds => .error (.outOfBounds bounds)

/-- The next byte, which stays unread. -/
def peek : Reader UInt8 :=
  ofRead fun input => input.peek.map fun byte => (byte, input)

/-- Reads the next byte. -/
def byte : Reader UInt8 :=
  ofRead Lookahead.next

/-- Passes over the next byte. -/
def skipByte : Reader Unit :=
  ofRead fun input => (input.skip 1).map fun input => ((), input)

/-- Reads a little-endian number of `count` bytes. -/
def littleEndian (count : Nat) : Reader UInt64 :=
  ofRead fun input => input.readLittleEndian count

/-- How many bytes have been read. -/
def consumed : Reader Nat :=
  fun input => .ok (input.consumed, input)

/-- A sequence runs its second part on what the first part leaves. -/
theorem bind_apply (first : Reader α) (second : α → Reader β) (input : Lookahead) :
    (first >>= second) input =
      match first input with
      | .ok (value, between) => second value between
      | .error fault => .error fault := by
  change Except.bind (first input) (fun (value, between) => second value between) = _
  rcases first input with fault | ⟨value, between⟩ <;> rfl

/-- A sequence succeeds exactly when both parts do, one after the other. -/
theorem bind_eq_ok_iff {first : Reader α} {second : α → Reader β}
    {input after : Lookahead} {result : β} :
    (first >>= second) input = .ok (result, after) ↔
      ∃ value between,
        first input = .ok (value, between) ∧ second value between = .ok (result, after) := by
  rw [bind_apply]
  rcases first input with fault | ⟨value, between⟩
  · simp
  · simp only [Except.ok.injEq, Prod.mk.injEq]
    constructor
    · exact fun h => ⟨value, between, ⟨rfl, rfl⟩, h⟩
    · rintro ⟨_, _, ⟨rfl, rfl⟩, h⟩
      exact h

/-- A computation that reads nothing succeeds with its value. -/
theorem pure_eq_ok_iff {value result : α} {input after : Lookahead} :
    (pure value : Reader α) input = .ok (result, after) ↔ value = result ∧ input = after := by
  change Except.ok (value, input) = .ok (result, after) ↔ _
  simp

/-- A failed computation does not succeed. -/
theorem fail_ne_ok {fault : Fault} {input after : Lookahead} {result : α} :
    fail fault input ≠ .ok (result, after) := by
  simp [fail]

/-- A read succeeds exactly when the lookahead allows it. -/
theorem ofRead_eq_ok_iff {read : Lookahead → Except OutOfBounds (α × Lookahead)}
    {input after : Lookahead} {result : α} :
    ofRead read input = .ok (result, after) ↔ read input = .ok (result, after) := by
  unfold ofRead
  rcases read input with bounds | result <;> simp

end Reader

end LongMode
