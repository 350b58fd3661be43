import LongMode.Proofs.Extension
import LongMode.Proofs.Relocation

/-!
# The bytes of an instruction

A record does not keep its bytes. `Instruction.bytes?` finds them again from the address, whose
distance from the base is the position in the region as long as positions are 64-bit numbers
(`Cursor.toNat_address_sub_base`). `bytes?_eq_some_iff` says what it finds for any record at all,
and `decode_slice` that for a decoded one it finds the bytes that were decoded, which decode to
the same record by themselves.
-/

namespace LongMode

variable {region bytes : List UInt8} {base : UInt64} {instruction : Instruction}

theorem wordSum?_eq_some_iff {first second sum : Nat} :
    wordSum? first second = some sum ↔ first + second < 2 ^ 64 ∧ first + second = sum := by
  unfold wordSum?
  by_cases h : first + second < UInt64.size
  · rw [if_pos h, Option.some.injEq]
    exact (and_iff_right h).symm
  · rw [if_neg h]
    exact iff_of_false nofun fun hsum => h hsum.1

theorem slice?_eq_some_iff {start stop : Nat} :
    slice? region start stop = some bytes ↔
      start ≤ stop ∧ stop ≤ region.length ∧ (region.drop start).take (stop - start) = bytes := by
  unfold slice?
  by_cases h : start ≤ stop ∧ stop ≤ region.length
  · rw [if_pos h, Option.some.injEq, ← and_assoc]
    exact (and_iff_right h).symm
  · rw [if_neg h]
    exact iff_of_false nofun fun hslice => h ⟨hslice.1, hslice.2.1⟩

/-- A record has the bytes between its place and its end, if the region reaches so far. An end
that is no 64-bit number lies behind every region. -/
theorem Instruction.bytes?_eq_some_iff (hregion : region.length < 2 ^ 64) :
    instruction.bytes? region base = some bytes ↔
      (instruction.address - base).toNat + instruction.length ≤ region.length ∧
        (region.drop (instruction.address - base).toNat).take instruction.length = bytes := by
  unfold Instruction.bytes?
  simp only [Option.bind_eq_bind, Option.bind_eq_some_iff, wordSum?_eq_some_iff,
    slice?_eq_some_iff]
  refine ⟨?_, ?_⟩
  · rintro ⟨stop, ⟨-, rfl⟩, -, hstop, hbytes⟩
    rw [Nat.add_sub_cancel_left] at hbytes
    exact ⟨hstop, hbytes⟩
  · rintro ⟨hstop, hbytes⟩
    refine ⟨_, ⟨Nat.lt_of_le_of_lt hstop hregion, rfl⟩, Nat.le_add_right _ _, hstop, ?_⟩
    rwa [Nat.add_sub_cancel_left]

/-- The distance from the base to a cursor's address is the cursor's position, also where the
address has wrapped. -/
theorem Cursor.toNat_address_sub_base {cursor : Cursor} (h : cursor.position < 2 ^ 64) :
    (cursor.address - cursor.base).toNat = cursor.position := by
  have hdistance : cursor.address - cursor.base = UInt64.ofNat cursor.position := by
    show cursor.base + UInt64.ofNat cursor.position - cursor.base = _
    rw [UInt64.add_comm, UInt64.add_sub_cancel]
  rw [hdistance, UInt64.toNat_ofNat']
  exact Nat.mod_eq_of_lt h

variable {settings : Settings} {cursor : Cursor}

/-- A decoded instruction lies within the region, behind the cursor. -/
theorem Cursor.position_add_length_le (h : (decode settings cursor).outcome = .ok instruction) :
    cursor.position + instruction.length ≤ cursor.capacity ∧ 0 < instruction.length := by
  obtain ⟨after, hread⟩ := outcome_eq_ok_iff.mp h
  obtain ⟨hpos, hlength⟩ := length_of_readInstruction_le hread
  rw [Cursor.remaining] at hlength
  omega

/-- The bytes of a decoded instruction are those at the cursor. -/
theorem bytes?_of_outcome (hregion : cursor.capacity < 2 ^ 64)
    (h : (decode settings cursor).outcome = .ok instruction) :
    instruction.bytes? cursor.region cursor.base =
      some ((cursor.region.drop cursor.position).take instruction.length) := by
  have hend := Cursor.position_add_length_le h
  have haddress : instruction.address = cursor.address :=
    (outcome_eq_ok_iff_isEncodedBy.mp h).1
  have hplace : (instruction.address - cursor.base).toNat = cursor.position := by
    rw [haddress]
    exact Cursor.toNat_address_sub_base (by omega)
  rw [Instruction.bytes?_eq_some_iff hregion, hplace]
  exact ⟨hend.1, rfl⟩

/-- An instruction decodes again from its own bytes. -/
theorem decodeAt_slice (h : (decode settings cursor).outcome = .ok instruction) :
    decodeAt settings ((cursor.region.drop cursor.position).take instruction.length)
      instruction.address = .ok instruction := by
  have hend := Cursor.position_add_length_le h
  have haddress : instruction.address = cursor.address :=
    (outcome_eq_ok_iff_isEncodedBy.mp h).1
  rw [outcome_eq_decodeAt settings (by omega)] at h
  rw [haddress]
  exact decodeAt_take_of_length_le h (Nat.le_refl _)

/-- The bytes of a decoded instruction are found again in its region, at the position where it
was decoded, also where addresses have wrapped on the way there, and they decode to the same
record. For any record at all, made by hand or decoded, the bytes are there exactly when the
region reaches from the record's distance to the base over its whole length. -/
theorem decode_slice (region : List UInt8) (hregion : region.length < 2 ^ 64) (base : UInt64) :
    (∀ settings position instruction,
      (decode settings { region, position, base }).outcome = .ok instruction →
      position + instruction.length ≤ region.length ∧
      instruction.bytes? region base = some ((region.drop position).take instruction.length) ∧
      decodeAt settings ((region.drop position).take instruction.length) instruction.address =
        .ok instruction) ∧
    (∀ (record : Instruction) (start : Nat) (bytes : List UInt8),
      start = (2 ^ 64 - base.toNat + record.address.toNat) % 2 ^ 64 →
      (record.bytes? region base = some bytes ↔
        start + record.length ≤ region.length ∧
          (region.drop start).take record.length = bytes)) := by
  refine ⟨?_, ?_⟩
  · intro settings position instruction h
    let cursor : Cursor := { region, position, base }
    have hcapacity : cursor.capacity < 2 ^ 64 := hregion
    have hbytes := bytes?_of_outcome hcapacity h
    have hagain := decodeAt_slice h
    exact ⟨(Cursor.position_add_length_le h).1, hbytes, hagain⟩
  · intro record start bytes hstart
    rw [Instruction.bytes?_eq_some_iff hregion, UInt64.toNat_sub, hstart]

/-- A load that starts at the last address and ends behind the first one: its bytes are found
two bytes into the region. The same record with a length that overflows has none. -/
theorem decode_slice_wrapped_load :
    ∃ instruction,
      (decode {} ⟨[0x90, 0x90, 0x8B, 0x05, 0xF0, 0xFF, 0xFF, 0xFF, 0xC3], 2,
        0xFFFFFFFFFFFFFFFD⟩).outcome = .ok instruction ∧
      instruction.address = 0xFFFFFFFFFFFFFFFF ∧
      instruction.bytes? [0x90, 0x90, 0x8B, 0x05, 0xF0, 0xFF, 0xFF, 0xFF, 0xC3]
        0xFFFFFFFFFFFFFFFD = some [0x8B, 0x05, 0xF0, 0xFF, 0xFF, 0xFF] ∧
      decodeAt {} [0x8B, 0x05, 0xF0, 0xFF, 0xFF, 0xFF] 0xFFFFFFFFFFFFFFFF = .ok instruction ∧
      ∀ bytes, { instruction with length := 2 ^ 64 - 1 }.bytes?
        [0x90, 0x90, 0x8B, 0x05, 0xF0, 0xFF, 0xFF, 0xFF, 0xC3] 0xFFFFFFFFFFFFFFFD ≠
          some bytes := by
  obtain ⟨hdecoded, hrecords⟩ :=
    decode_slice [0x90, 0x90, 0x8B, 0x05, 0xF0, 0xFF, 0xFF, 0xFF, 0xC3] (by decide)
      0xFFFFFFFFFFFFFFFD
  obtain ⟨-, hbytes, hagain⟩ := hdecoded {} 2 _ rfl
  refine ⟨_, rfl, rfl, hbytes, hagain, ?_⟩
  intro bytes h
  have hlength := ((hrecords _ 2 bytes rfl).mp h).1
  revert hlength
  decide

end LongMode
