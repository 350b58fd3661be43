import LongMode.Reader
import Mathlib.Algebra.Group.Nat.Defs

/-!
# What a reader reads

`input.Reads bytes after` says that a lookahead went from `input` to `after` by
reading exactly `bytes`. Every elementary reader has one lemma here that says when it
succeeds, in terms of the bytes it reads, and one that says how many bytes it asks for and
so when it fails. The stages of the decoder are described the same way from these lemmas
and `reads_append_iff`, so that no later proof opens a reader.
-/

namespace LongMode

namespace LittleEndian

/-- A byte string of `n` bytes stands for a number below `256 ^ n`. -/
theorem value_lt (source : List UInt8) : value source < 256 ^ source.length := by
  induction source with
  | nil => simp [value]
  | cons byte rest ih =>
      have small := byte.toNat_lt
      simp only [value, List.length_cons, Nat.pow_succ]
      omega

/-- Reading back the lowest `count` bytes of a number gives the number modulo
`256 ^ count`. -/
theorem value_bytes (count number : Nat) : value (bytes count number) = number % 256 ^ count := by
  induction count generalizing number with
  | zero => simp [bytes, value, Nat.mod_one]
  | succ count ih =>
      rw [bytes, value, ih, Nat.pow_succ, Nat.mul_comm _ 256, Nat.mod_mul]
      simp

/-- A 64-bit number has room for eight bytes. -/
theorem toNat_ofNat_value {source : List UInt8} (h : source.length ≤ 8) :
    (UInt64.ofNat (value source)).toNat = value source := by
  have hvalue := value_lt source
  have hwide : 256 ^ source.length ≤ 256 ^ 8 := Nat.pow_le_pow_right (by decide) h
  exact UInt64.toNat_ofNat_of_lt' (Nat.lt_of_lt_of_le hvalue hwide)

end LittleEndian

namespace Lookahead

/-- `input.Reads bytes after` says that `after` is `input` with `bytes` read. -/
structure Reads (input : Lookahead) (bytes : List UInt8) (after : Lookahead) : Prop where
  rest_eq : input.rest = bytes ++ after.rest
  consumed_eq : after.consumed = input.consumed + bytes.length
  start_eq : after.start = input.start
  capacity_eq : after.capacity = input.capacity

/-- Reading no bytes changes nothing. -/
theorem reads_nil_iff {input after : Lookahead} : input.Reads [] after ↔ input = after := by
  refine ⟨?_, ?_⟩
  · intro h
    obtain ⟨hrest, hconsumed, hstart, hcapacity⟩ := h
    cases input
    cases after
    simp_all
  · intro h
    subst h
    exact ⟨rfl, rfl, rfl, rfl⟩

/-- Two readings one after the other are a reading of all their bytes. -/
theorem Reads.append {input between after : Lookahead} {first second : List UInt8}
    (hfirst : input.Reads first between) (hsecond : between.Reads second after) :
    input.Reads (first ++ second) after where
  rest_eq := by rw [hfirst.rest_eq, hsecond.rest_eq, List.append_assoc]
  consumed_eq := by
    rw [hsecond.consumed_eq, hfirst.consumed_eq, List.length_append, Nat.add_assoc]
  start_eq := hsecond.start_eq.trans hfirst.start_eq
  capacity_eq := hsecond.capacity_eq.trans hfirst.capacity_eq

/-- A reading can be divided at every place. -/
theorem reads_append_iff {input after : Lookahead} {first second : List UInt8} :
    input.Reads (first ++ second) after ↔
      ∃ between, input.Reads first between ∧ between.Reads second after := by
  refine ⟨?_, ?_⟩
  · intro h
    refine ⟨{ input with
      consumed := input.consumed + first.length, rest := second ++ after.rest }, ?_, ?_⟩
    · exact ⟨by rw [h.rest_eq, List.append_assoc], rfl, rfl, rfl⟩
    · refine ⟨rfl, ?_, h.start_eq, h.capacity_eq⟩
      rw [h.consumed_eq, List.length_append, Nat.add_assoc]
  · intro h
    obtain ⟨between, hfirst, hsecond⟩ := h
    exact hfirst.append hsecond

/-- A reading starts with its first byte. -/
theorem reads_cons_iff {input after : Lookahead} {byte : UInt8} {bytes : List UInt8} :
    input.Reads (byte :: bytes) after ↔
      ∃ between, input.Reads [byte] between ∧ between.Reads bytes after := by
  rw [← List.singleton_append, reads_append_iff]

/-- The bytes of a reading are at the head of what there was to read. -/
theorem Reads.head?_eq {input after : Lookahead} {byte : UInt8} {bytes : List UInt8}
    (h : input.Reads (byte :: bytes) after) : input.rest.head? = some byte := by
  rw [h.rest_eq]
  rfl

/-- Reading a byte is a reading of that byte. -/
theorem next_eq_ok_iff_reads {input after : Lookahead} {byte : UInt8} :
    input.next = .ok (byte, after) ↔ input.Reads [byte] after := by
  rw [next_eq_ok_iff]
  refine ⟨?_, ?_⟩
  · intro h
    obtain ⟨hrest, hconsumed, hstart, hcapacity⟩ := h
    exact ⟨hrest, hconsumed, hstart, hcapacity⟩
  · intro h
    exact ⟨h.rest_eq, h.consumed_eq, h.start_eq, h.capacity_eq⟩

/-- Reading `count` bytes is a reading of that many. -/
theorem take_eq_ok_iff_reads {input after : Lookahead} {count : Nat} {bytes : List UInt8} :
    input.take count = .ok (bytes, after) ↔ input.Reads bytes after ∧ bytes.length = count := by
  rw [take_eq_ok_iff]
  refine ⟨?_, ?_⟩
  · intro h
    obtain ⟨hrest, rfl, hconsumed, hstart, hcapacity⟩ := h
    exact ⟨⟨hrest, hconsumed, hstart, hcapacity⟩, rfl⟩
  · intro h
    obtain ⟨hreads, rfl⟩ := h
    exact ⟨hreads.rest_eq, rfl, hreads.consumed_eq, hreads.start_eq, hreads.capacity_eq⟩

/-- Whatever is made of `count` bytes, they are the next ones. -/
theorem map_take_eq_ok_iff {α : Type} (value : List UInt8 → α) {result : α}
    {input after : Lookahead} {count : Nat} :
    ((input.take count).map fun (bytes, last) => (value bytes, last)) = .ok (result, after) ↔
      ∃ bytes, input.Reads bytes after ∧ bytes.length = count ∧ value bytes = result := by
  refine ⟨?_, ?_⟩
  · intro h
    cases htake : input.take count with
    | error bounds =>
        rw [htake] at h
        cases h
    | ok taken =>
        obtain ⟨bytes, last⟩ := taken
        rw [htake] at h
        cases h
        obtain ⟨hreads, hlength⟩ := take_eq_ok_iff_reads.mp htake
        exact ⟨bytes, hreads, hlength, rfl⟩
  · intro h
    obtain ⟨bytes, hreads, hlength, rfl⟩ := h
    rw [take_eq_ok_iff_reads.mpr ⟨hreads, hlength⟩]
    rfl

/-- Reading a number is a reading of its bytes. -/
theorem readLittleEndian_eq_ok_iff {input after : Lookahead} {count : Nat} {number : UInt64} :
    input.readLittleEndian count = .ok (number, after) ↔
      ∃ bytes, input.Reads bytes after ∧ bytes.length = count ∧
        UInt64.ofNat (LittleEndian.value bytes) = number :=
  map_take_eq_ok_iff fun bytes => UInt64.ofNat (LittleEndian.value bytes)

/-- Reading `count` bytes is refused exactly when fewer are left. -/
theorem take_eq_error_iff {input : Lookahead} {count : Nat} {bounds : OutOfBounds} :
    input.take count = .error bounds ↔
      input.rest.length < count ∧ bounds = input.outOfBounds count := by
  simp only [take, List.length_take]
  by_cases hcount : min count input.rest.length = count
  · rw [if_pos hcount]
    constructor
    · intro h
      cases h
    · rintro ⟨hshort, -⟩
      omega
  · rw [if_neg hcount, Except.error.injEq, eq_comm]
    refine ⟨fun h => ⟨by omega, h⟩, fun h => h.2⟩

/-- Reading a number is refused exactly when fewer bytes are left than it has. -/
theorem readLittleEndian_eq_error_iff {input : Lookahead} {count : Nat} {bounds : OutOfBounds} :
    input.readLittleEndian count = .error bounds ↔
      input.rest.length < count ∧ bounds = input.outOfBounds count := by
  rw [← take_eq_error_iff, readLittleEndian]
  cases input.take count <;> simp [Except.map]

end Lookahead

namespace Reader

variable {α : Type} {input after : Lookahead}

/-- Reading a byte succeeds exactly when it is the next one. -/
theorem byte_eq_ok_iff {value : UInt8} :
    byte input = .ok (value, after) ↔ input.Reads [value] after := by
  rw [byte, ofRead_eq_ok_iff, Lookahead.next_eq_ok_iff_reads]

/-- Looking at a byte succeeds exactly when it is the next one, and reads nothing. -/
theorem peek_eq_ok_iff {value : UInt8} :
    peek input = .ok (value, after) ↔ input.rest.head? = some value ∧ input = after := by
  rw [peek, ofRead_eq_ok_iff, Lookahead.peek]
  rcases input.rest with _ | ⟨first, rest⟩ <;> simp [Except.map]

/-- Passing over a byte succeeds exactly when there is one. -/
theorem skipByte_eq_ok_iff {result : Unit} :
    skipByte input = .ok (result, after) ↔ ∃ value, input.Reads [value] after := by
  rw [skipByte, ofRead_eq_ok_iff, Lookahead.skip]
  refine ⟨?_, ?_⟩
  · intro h
    rcases htake : input.take 1 with bounds | ⟨bytes, rest⟩ <;> simp [htake, Except.map] at h
    subst h
    obtain ⟨hreads, hlength⟩ := Lookahead.take_eq_ok_iff_reads.mp htake
    obtain ⟨value, rfl⟩ := List.length_eq_one_iff.mp hlength
    exact ⟨value, hreads⟩
  · intro h
    obtain ⟨value, hreads⟩ := h
    have htake : input.take 1 = .ok ([value], after) :=
      Lookahead.take_eq_ok_iff_reads.mpr ⟨hreads, rfl⟩
    simp [htake, Except.map]

/-- Reading a little-endian number of at most eight bytes succeeds exactly when its
bytes are the next ones. -/
theorem littleEndian_eq_ok_iff {count : Nat} (hcount : count ≤ 8) {value : UInt64} :
    littleEndian count input = .ok (value, after) ↔
      value.toNat < 256 ^ count ∧
        input.Reads (LittleEndian.bytes count value.toNat) after := by
  rw [littleEndian, ofRead_eq_ok_iff, Lookahead.readLittleEndian_eq_ok_iff]
  refine ⟨?_, ?_⟩
  · intro h
    obtain ⟨bytes, hreads, rfl, rfl⟩ := h
    rw [LittleEndian.toNat_ofNat_value hcount, LittleEndian.bytes_value]
    exact ⟨LittleEndian.value_lt bytes, hreads⟩
  · intro h
    obtain ⟨hsmall, hreads⟩ := h
    refine ⟨_, hreads, LittleEndian.length_bytes _ _, ?_⟩
    rw [LittleEndian.value_bytes, Nat.mod_eq_of_lt hsmall, UInt64.ofNat_toNat]

/-- The count of the bytes read so far is always there. -/
theorem consumed_eq_ok_iff {count : Nat} :
    consumed input = .ok (count, after) ↔ input.consumed = count ∧ input = after := by
  simp [consumed]

/-- A computation that reads nothing succeeds exactly when its result is a value. -/
theorem ofExcept_eq_ok_iff {result : Except Fault α} {value : α} :
    ofExcept result input = .ok (value, after) ↔ result = .ok value ∧ input = after := by
  cases result with
  | ok found => simp [ofExcept, pure_eq_ok_iff]
  | error fault => simp [ofExcept, fail]

/-! ## Reads that are refused -/

/-- `reader.Asks count` says that the reader fails exactly where fewer than `count` bytes are
left, and then with the refusal of that many. -/
def Asks (reader : Reader α) (count : Nat) : Prop :=
  ∀ input fault, reader input = .error fault ↔
    input.rest.length < count ∧ fault = .outOfBounds (input.outOfBounds count)

/-- A read asks for as many bytes as it is refused. -/
theorem asks_ofRead {read : Lookahead → Except OutOfBounds (α × Lookahead)} {count : Nat}
    (h : ∀ input bounds, read input = .error bounds ↔
      input.rest.length < count ∧ bounds = input.outOfBounds count) :
    Asks (ofRead read) count := by
  intro input fault
  have hbounds := h input
  unfold ofRead
  cases hread : read input with
  | ok result =>
      refine ⟨nofun, ?_⟩
      intro hshort
      rw [(hbounds _).mpr ⟨hshort.1, rfl⟩] at hread
      cases hread
  | error bounds =>
      obtain ⟨hshort, rfl⟩ := (hbounds bounds).mp hread
      simp [hshort, eq_comm]

theorem asks_peek : Asks peek 1 := by
  refine asks_ofRead ?_
  intro input bounds
  unfold Lookahead.peek
  rcases input.rest with _ | ⟨first, rest⟩ <;> simp [Except.map, eq_comm]

theorem asks_byte : Asks byte 1 := by
  refine asks_ofRead ?_
  intro input bounds
  unfold Lookahead.next
  rcases input.rest with _ | ⟨first, rest⟩ <;> simp [eq_comm]

theorem asks_skipByte : Asks skipByte 1 := by
  refine asks_ofRead ?_
  intro input bounds
  rw [← Lookahead.take_eq_error_iff, Lookahead.skip]
  cases input.take 1 <;> simp [Except.map]

theorem asks_littleEndian (count : Nat) : Asks (littleEndian count) count := by
  refine asks_ofRead ?_
  intro input bounds
  exact Lookahead.readLittleEndian_eq_error_iff

end Reader

end LongMode
