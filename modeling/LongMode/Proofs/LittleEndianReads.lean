import LongMode.Proofs.ChecksHold
import LongMode.Proofs.ProbeState
import Mathlib.Data.Nat.Digits.Lemmas

/-!
# Little-endian reads

A little-endian number is read in one piece. Its bytes are its digits to base 256, so two reads
one after the other give its lower and its upper digits (`readLittleEndian_add`), and single reads
give them one by one (`Reads.nextBytes_eq`). `lookRead_exact` puts this together for all lookaheads
that requests lead to, and says which reads are refused.
-/

namespace LongMode

/-! ## Digits -/

namespace LittleEndian

/-- The bytes of a number are its digits to base 256. -/
theorem value_eq_ofDigits (source : List UInt8) :
    value source = Nat.ofDigits 256 (source.map UInt8.toNat) := by
  induction source with
  | nil => rfl
  | cons byte rest ih => rw [value, ih, List.map_cons, Nat.ofDigits_cons]

theorem value_eq_sum (source : List UInt8) :
    value source = (source.mapIdx fun i byte => byte.toNat * 256 ^ i).sum := by
  rw [value_eq_ofDigits, Nat.ofDigits_eq_sum_mapIdx]
  simp only [List.mapIdx_eq_zipIdx_map, List.zipIdx_map, List.map_map]
  rfl

/-- What follows `n` bytes counts `256 ^ n` times. -/
theorem value_append (first second : List UInt8) :
    value (first ++ second) = value first + 256 ^ first.length * value second := by
  simp only [value_eq_ofDigits, List.map_append, Nat.ofDigits_append, List.length_map]

end LittleEndian

/-! ## Reads -/

namespace Lookahead

variable {input after : Lookahead} {region bytes : List UInt8} {count : Nat} {number : UInt64}

/-- A number is read exactly where as many bytes are left. -/
theorem exists_readLittleEndian_iff :
    (∃ number after, input.readLittleEndian count = .ok (number, after)) ↔
      count ≤ input.rest.length := by
  rw [← Nat.not_lt]
  cases hread : input.readLittleEndian count with
  | ok result =>
      refine iff_of_true ⟨result.1, result.2, rfl⟩ ?_
      intro hshort
      cases hread.symm.trans (readLittleEndian_eq_error_iff.mpr ⟨hshort, rfl⟩)
  | error bounds =>
      refine iff_of_false nofun ?_
      exact not_not_intro (readLittleEndian_eq_error_iff.mp hread).1

/-- A number is read in two pieces as it is read in one, with the upper piece behind the lower. -/
theorem readLittleEndian_add {first second : Nat} (h : first + second ≤ 8) :
    input.readLittleEndian (first + second) = .ok (number, after) ↔
      ∃ low between high, input.readLittleEndian first = .ok (low, between) ∧
        between.readLittleEndian second = .ok (high, after) ∧
        number.toNat = low.toNat + 256 ^ first * high.toNat := by
  -- On both sides the bytes are the same; `hjoin` compares the numbers made of them.
  have hjoin {lower upper : List UInt8} (hlower : lower.length = first)
      (hupper : upper.length = second) :
      (UInt64.ofNat (LittleEndian.value (lower ++ upper))).toNat =
        (UInt64.ofNat (LittleEndian.value lower)).toNat +
          256 ^ first * (UInt64.ofNat (LittleEndian.value upper)).toNat := by
    rw [LittleEndian.toNat_ofNat_value (by rw [List.length_append]; omega),
      LittleEndian.toNat_ofNat_value (by omega), LittleEndian.toNat_ofNat_value (by omega),
      LittleEndian.value_append, hlower]
  refine ⟨?_, ?_⟩
  · intro hread
    obtain ⟨bytes, hreads, hlength, rfl⟩ := readLittleEndian_eq_ok_iff.mp hread
    have hlower : (bytes.take first).length = first := List.length_take_of_le (by omega)
    have hupper : (bytes.drop first).length = second := by
      rw [List.length_drop]
      omega
    rw [← List.take_append_drop first bytes] at hreads ⊢
    obtain ⟨between, hfirst, hsecond⟩ := reads_append_iff.mp hreads
    exact ⟨_, between, _, readLittleEndian_eq_ok_iff.mpr ⟨_, hfirst, hlower, rfl⟩,
      readLittleEndian_eq_ok_iff.mpr ⟨_, hsecond, hupper, rfl⟩, hjoin hlower hupper⟩
  · intro hreads
    obtain ⟨low, between, high, hlow, hhigh, hnumber⟩ := hreads
    obtain ⟨lower, hfirst, hlower, rfl⟩ := readLittleEndian_eq_ok_iff.mp hlow
    obtain ⟨upper, hsecond, hupper, rfl⟩ := readLittleEndian_eq_ok_iff.mp hhigh
    refine readLittleEndian_eq_ok_iff.mpr ⟨lower ++ upper, hfirst.append hsecond, ?_, ?_⟩
    · rw [List.length_append, hlower, hupper]
    · apply UInt64.toNat_inj.mp
      rw [hnumber, hjoin hlower hupper]

/-! ## Single bytes -/

/-- The bytes that `count` single reads give, one after the other. -/
def nextBytes : (count : Nat) → Lookahead → Except OutOfBounds (List UInt8 × Lookahead)
  | 0, input => .ok ([], input)
  | count + 1, input => do
      let (byte, between) ← input.next
      let (bytes, after) ← nextBytes count between
      pure (byte :: bytes, after)

/-- Single reads give the bytes of a reading and lead to its end. -/
theorem Reads.nextBytes_eq (hreads : input.Reads bytes after) :
    nextBytes bytes.length input = .ok (bytes, after) := by
  induction bytes generalizing input with
  | nil =>
      rw [reads_nil_iff.mp hreads]
      rfl
  | cons byte bytes ih =>
      obtain ⟨between, hfirst, hrest⟩ := reads_cons_iff.mp hreads
      show (input.next >>= _) = _
      rw [next_eq_ok_iff_reads.mpr hfirst]
      show (nextBytes bytes.length between >>= _) = _
      rw [ih hrest]
      rfl

/-- Where a byte is missing, single reads go on to the last one, and the byte behind it is
refused. -/
theorem nextBytes_of_length_lt (h : input.rest.length < count) :
    nextBytes count input =
      .error { offset := input.start + input.consumed + input.rest.length, needed := 1,
               capacity := input.capacity } := by
  induction count generalizing input with
  | zero => exact absurd h (Nat.not_lt_zero _)
  | succ count ih =>
      show (input.next >>= _) = _
      unfold next
      cases hrest : input.rest with
      | nil => rfl
      | cons byte rest =>
          rw [hrest, List.length_cons] at h
          show (nextBytes count _ >>= _) = _
          rw [ih (Nat.lt_of_succ_lt_succ h), List.length_cons]
          simp only [Nat.add_assoc, Nat.add_comm 1]
          rfl

/-! ## Reads within a region -/

theorem Within.length_rest (h : input.Within region) :
    input.rest.length = input.capacity - input.start - input.consumed := by
  have hlength := h.place_add_length
  have hcapacity := h.capacity_eq
  omega

/-- A reading takes the bytes of the region behind the place of the lookahead, and leaves those
behind them. -/
theorem Within.reads_eq (h : input.Within region) (hreads : input.Reads bytes after) :
    bytes = (region.drop (input.start + input.consumed)).take bytes.length ∧
      after = { input with
        consumed := input.consumed + bytes.length
        rest := region.drop (input.start + input.consumed + bytes.length) } := by
  have hafter := (h.reads hreads).rest_eq
  obtain ⟨start, consumed, capacity, rest⟩ := after
  obtain ⟨hrest, hconsumed, hstart, hcapacity⟩ := hreads
  obtain rfl : consumed = input.consumed + bytes.length := hconsumed
  obtain rfl : start = input.start := hstart
  obtain rfl : capacity = input.capacity := hcapacity
  refine ⟨?_, ?_⟩
  · rw [← h.rest_eq, hrest, List.take_left]
  · rw [Nat.add_assoc, ← hafter]

end Lookahead

namespace Probe

variable {probe : Probe} {look : Lookahead} {count : Nat}

/-- A number that is read moves the lookahead on. -/
theorem serve_lookRead_of_ok (hlook : probe.lookahead = some look) {number : UInt64}
    {after : Lookahead} (h : look.readLittleEndian count = .ok (number, after)) :
    probe.serve (.lookRead count) = (.number number, { probe with lookahead := some after }) := by
  simp only [serve, settleLookahead, hlook, h]
  rfl

/-- A number that is refused changes nothing. -/
theorem serve_lookRead_of_error (hlook : probe.lookahead = some look) {bounds : OutOfBounds}
    (h : look.readLittleEndian count = .error bounds) :
    probe.serve (.lookRead count) = (.refused bounds, probe) := by
  simp only [serve, settleLookahead, hlook, h]
  rfl

/-- A lookahead reads a little-endian number of at most eight bytes exactly when as many are left
in its region. The number is the sum of the bytes, each times its power of 256, which is what
comes of shifting them into a 64-bit word from the last to the first. So it is written with the
bytes that were read, and the lookahead moves on behind them. Two reads one after the other give
its lower and its upper part and end at the same place, and so do single reads, byte by byte. A
number that is refused is reported with the place of the lookahead, and nothing moves. -/
theorem lookRead_exact (region : List UInt8) (base : UInt64) (requests : List Request)
    {look : Lookahead}
    (hlook : (serveAll { cursor := .ofRegion region base } requests).lookahead = some look)
    {count : Nat} (hcount : count ≤ 8) :
    let probe := serveAll { cursor := .ofRegion region base } requests
    let place := look.start + look.consumed
    let bytes := (region.drop place).take count
    ((∃ number after, look.readLittleEndian count = .ok (number, after)) ↔
      count ≤ look.capacity - look.start - look.consumed) ∧
    (∀ number after, look.readLittleEndian count = .ok (number, after) →
      probe.serve (.lookRead count) = (.number number, { probe with lookahead := some after }) ∧
      after = { look with
        consumed := look.consumed + count, rest := region.drop (place + count) } ∧
      number.toNat = (bytes.mapIdx fun i byte => byte.toNat * 256 ^ i).sum ∧
      number = Checked.Lookahead.gather bytes ∧
      number.toNat < 256 ^ count ∧
      LittleEndian.bytes count number.toNat = bytes ∧
      Lookahead.nextBytes count look = .ok (bytes, after) ∧
      ∀ first second, first + second = count →
        ∃ low between high, look.readLittleEndian first = .ok (low, between) ∧
          between.readLittleEndian second = .ok (high, after) ∧
          number.toNat = low.toNat + 256 ^ first * high.toNat) ∧
    ∀ bounds, look.readLittleEndian count = .error bounds →
      probe.serve (.lookRead count) = (.refused bounds, probe) ∧
      bounds = { offset := place, needed := count, capacity := region.length } ∧
      Lookahead.nextBytes count look =
        .error { offset := region.length, needed := 1, capacity := region.length } := by
  intro probe place bytes
  have hwithin : look.Within region :=
    ((coherent_ofRegion region base).serveAll requests).within look hlook
  refine ⟨?_, ?_, ?_⟩
  · rw [← hwithin.length_rest]
    exact Lookahead.exists_readLittleEndian_iff
  · intro number after hread
    obtain ⟨found, hreads, hlength, hnumber⟩ := Lookahead.readLittleEndian_eq_ok_iff.mp hread
    obtain ⟨hfound, hafter⟩ := hwithin.reads_eq hreads
    rw [hlength] at hfound hafter
    obtain rfl : found = bytes := hfound
    have hvalue : number.toNat = LittleEndian.value bytes := by
      rw [← hnumber, LittleEndian.toNat_ofNat_value (by omega)]
    refine ⟨serve_lookRead_of_ok hlook hread, hafter, ?_, ?_, ?_, ?_, ?_, ?_⟩
    · rw [hvalue, LittleEndian.value_eq_sum]
    · rw [← hnumber, Checked.gather_eq]
    · rw [hvalue, ← hlength]
      exact LittleEndian.value_lt bytes
    · rw [hvalue, ← hlength]
      exact LittleEndian.bytes_value bytes
    · rw [← hlength]
      exact hreads.nextBytes_eq
    · intro first second hpieces
      subst hpieces
      exact (Lookahead.readLittleEndian_add hcount).mp hread
  · intro bounds hread
    obtain ⟨hshort, rfl⟩ := Lookahead.readLittleEndian_eq_error_iff.mp hread
    refine ⟨serve_lookRead_of_error hlook hread, ?_, ?_⟩
    · rw [Lookahead.outOfBounds, hwithin.capacity_eq]
    · rw [Lookahead.nextBytes_of_length_lt hshort, hwithin.place_add_length,
        hwithin.capacity_eq]

/-- The eight bytes behind the opcode of a wide move fill a 64-bit word. They are read in one
piece, or as three bytes and the five behind them. -/
theorem lookRead_exact_wide_move :
    ∃ look : Lookahead,
      (serveAll
        { cursor := .ofRegion [0x48, 0xB8, 0xF0, 0xDE, 0xBC, 0x9A, 0x78, 0x56, 0x34, 0xF2] 0 }
        [.look, .lookSkip 2]).lookahead = some look ∧
      8 ≤ 8 ∧
      ∃ number after low between high,
        look.readLittleEndian 8 = .ok (number, after) ∧
        number.toNat = 0xF23456789ABCDEF0 ∧ after.consumed = 10 ∧
        look.readLittleEndian 3 = .ok (low, between) ∧
        between.readLittleEndian 5 = .ok (high, after) ∧
        0xF23456789ABCDEF0 = low.toNat + 256 ^ 3 * high.toNat := by
  obtain ⟨hthere, hread, -⟩ := lookRead_exact
    [0x48, 0xB8, 0xF0, 0xDE, 0xBC, 0x9A, 0x78, 0x56, 0x34, 0xF2] 0 [.look, .lookSkip 2] rfl
    (Nat.le_refl 8)
  obtain ⟨number, after, hnumber⟩ := hthere.mpr (by decide)
  obtain ⟨-, hafter, hsum, -, -, -, -, hsplit⟩ := hread number after hnumber
  obtain ⟨low, between, high, hlow, hhigh, hjoin⟩ := hsplit 3 5 rfl
  have hvalue : number.toNat = 0xF23456789ABCDEF0 := hsum.trans (by decide)
  refine ⟨_, rfl, Nat.le_refl 8, number, after, low, between, high, hnumber, hvalue, ?_, hlow,
    hhigh, hvalue.symm.trans hjoin⟩
  rw [hafter]
  rfl

end Probe

end LongMode
