import LongMode.Proofs.Language

/-!
# What a decode call commits

A decode call reads through a lookahead and moves its cursor in one step at the end.
`advance_of_readInstruction` says that this step cannot fail, because an instruction
is never longer than the bytes that were there to read. `decode_cases` lists what is
left: the cursor is at the end of the region, or no instruction could be read and the
cursor stays, or the cursor moves past the instruction.
-/

namespace LongMode

variable {settings : Settings} {cursor : Cursor} {instruction : Instruction}
  {after : Lookahead}

namespace Instruction

/-- An encoding starts with at least one byte, that of the opcode. -/
theorem IsEncodedBy.length_pos {bytes : List UInt8} (h : instruction.IsEncodedBy settings bytes) :
    0 < instruction.length := by
  obtain ⟨run, rfl, -⟩ := h.exists_run
  obtain ⟨first, rest, hbody, -⟩ := h.wellFormed.exists_body_eq_cons
  rw [h.length_eq, hbody, List.length_append, List.length_cons]
  omega

end Instruction

/-- The bytes of a reading that starts at a cursor are bytes of its region. -/
theorem Cursor.drop_region_of_reads {bytes : List UInt8}
    (h : cursor.lookahead.Reads bytes after) :
    cursor.region.drop cursor.position = bytes ++ after.rest :=
  h.rest_eq

/-- A reading that starts at a cursor stays within the remaining bytes. -/
theorem Cursor.length_le_remaining {bytes : List UInt8}
    (h : cursor.lookahead.Reads bytes after) : bytes.length ≤ cursor.remaining := by
  have hlength := congrArg List.length (drop_region_of_reads h)
  rw [List.length_drop, List.length_append] at hlength
  show bytes.length ≤ cursor.region.length - cursor.position
  omega

namespace Cursor

/-- At the end of a region nothing remains of it. -/
theorem drop_region_of_isAtEnd (h : cursor.isAtEnd = true) :
    cursor.region.drop cursor.position = [] := by
  have h : cursor.position = cursor.region.length := by simpa [isAtEnd, capacity] using h
  rw [h, List.drop_length]

/-- Before the end of a region something remains of it. -/
theorem drop_region_ne_nil (h : cursor.position < cursor.capacity) :
    cursor.region.drop cursor.position ≠ [] := by
  have h : cursor.position < cursor.region.length := h
  simpa [List.drop_eq_nil_iff] using h

theorem position_lt_of_not_isAtEnd (hend : ¬ cursor.isAtEnd = true)
    (hposition : cursor.position ≤ cursor.capacity) : cursor.position < cursor.capacity := by
  simp only [isAtEnd, beq_iff_eq] at hend
  omega

end Cursor

/-- An instruction that was read has a length within the remaining bytes. -/
theorem length_of_readInstruction_le
    (h : readInstruction settings cursor.address cursor.lookahead = .ok (instruction, after)) :
    0 < instruction.length ∧ instruction.length ≤ cursor.remaining := by
  obtain ⟨-, bytes, hencoded, hreads⟩ := readInstruction_sound rfl h
  refine ⟨hencoded.length_pos, ?_⟩
  rw [hencoded.length_eq]
  exact Cursor.length_le_remaining hreads

/-- The move past an instruction that was read cannot be refused. -/
theorem advance_of_readInstruction
    (h : readInstruction settings cursor.address cursor.lookahead = .ok (instruction, after)) :
    cursor.advance instruction.length =
      .ok { cursor with position := cursor.position + instruction.length } :=
  Cursor.advance_eq_ok_iff.mpr ⟨(length_of_readInstruction_le h).2, rfl⟩

/-- Everything that a decode call can do. -/
theorem decode_cases (settings : Settings) (cursor : Cursor) :
    (cursor.isAtEnd = true ∧
      decode settings cursor =
        { outcome := .error { address := cursor.address, cause := .endOfInput },
          cursor, events := [] }) ∨
    (∃ fault, cursor.isAtEnd = false ∧
      readInstruction settings cursor.address cursor.lookahead = .error fault ∧
      decode settings cursor =
        { outcome := .error (fault.toFailure settings cursor),
          cursor, events := [.failed (fault.toFailure settings cursor)] }) ∨
    (∃ instruction after, cursor.isAtEnd = false ∧
      readInstruction settings cursor.address cursor.lookahead = .ok (instruction, after) ∧
      decode settings cursor =
        { outcome := .ok instruction,
          cursor := { cursor with position := cursor.position + instruction.length },
          events := [.decoded instruction] }) := by
  unfold decode
  cases hend : cursor.isAtEnd with
  | true => exact .inl ⟨rfl, rfl⟩
  | false =>
      cases hread : readInstruction settings cursor.address cursor.lookahead with
      | error fault => exact .inr (.inl ⟨fault, rfl, rfl, rfl⟩)
      | ok result =>
          obtain ⟨instruction, after⟩ := result
          refine .inr (.inr ⟨instruction, after, rfl, rfl, ?_⟩)
          simp only [advance_of_readInstruction hread, Bool.false_eq_true, if_false]

/-- The outcome of a decode call is what its reader gives, unless the cursor is at the
end of the region. -/
theorem outcome_decode (settings : Settings) (cursor : Cursor) :
    (decode settings cursor).outcome =
      if cursor.isAtEnd then .error { address := cursor.address, cause := .endOfInput }
      else
        match readInstruction settings cursor.address cursor.lookahead with
        | .ok (instruction, _) => .ok instruction
        | .error fault => .error (fault.toFailure settings cursor) := by
  obtain ⟨hend, hdecode⟩ | ⟨fault, hend, hread, hdecode⟩ | ⟨found, after, hend, hread, hdecode⟩ :=
    decode_cases settings cursor
  · rw [hdecode, hend]
    rfl
  · rw [hdecode, hend, hread]
    rfl
  · rw [hdecode, hend, hread]
    rfl

/-- At the end of a region there is no instruction to read. -/
theorem isAtEnd_eq_false_of_readInstruction
    (h : readInstruction settings cursor.address cursor.lookahead = .ok (instruction, after)) :
    cursor.isAtEnd = false := by
  have hlength := length_of_readInstruction_le h
  simp only [Cursor.isAtEnd, beq_eq_false_iff_ne]
  simp only [Cursor.remaining] at hlength
  omega

/-- A decode call succeeds exactly when an instruction can be read at the cursor. -/
theorem outcome_eq_ok_iff :
    (decode settings cursor).outcome = .ok instruction ↔
      ∃ after, readInstruction settings cursor.address cursor.lookahead =
        .ok (instruction, after) := by
  obtain ⟨hend, hdecode⟩ | ⟨fault, -, hread, hdecode⟩ | ⟨found, after, -, hread, hdecode⟩ :=
    decode_cases settings cursor
  · rw [hdecode]
    refine ⟨nofun, ?_⟩
    intro h
    obtain ⟨after, hread⟩ := h
    rw [isAtEnd_eq_false_of_readInstruction hread] at hend
    cases hend
  · rw [hdecode, hread]
    exact ⟨nofun, nofun⟩
  · rw [hdecode, hread]
    simp

/-- A decode call fails with the fault that its reader fails with. -/
theorem outcome_of_readInstruction_eq_error {fault : Fault} (hend : cursor.isAtEnd = false)
    (h : readInstruction settings cursor.address cursor.lookahead = .error fault) :
    (decode settings cursor).outcome = .error (fault.toFailure settings cursor) := by
  unfold decode
  rw [hend, h]
  rfl

/-- The first byte of a region lives at its base. -/
@[simp]
theorem Cursor.address_ofRegion (region : List UInt8) (base : UInt64) :
    (Cursor.ofRegion region base).address = base := by
  simp [Cursor.address, Cursor.ofRegion]

/-- There is nothing to decode in an empty byte string. -/
theorem decodeAt_nil (settings : Settings) (address : UInt64) :
    decodeAt settings [] address = .error ⟨address, .endOfInput⟩ := by
  rw [decodeAt, outcome_decode, Cursor.address_ofRegion]
  rfl

/-- The outcome for a byte string is what the reader gives at its start. -/
theorem decodeAt_of_ne_nil (settings : Settings) {source : List UInt8} (h : source ≠ [])
    (address : UInt64) :
    decodeAt settings source address =
      match readInstruction settings address (Cursor.ofRegion source address).lookahead with
      | .ok (instruction, _) => .ok instruction
      | .error fault => .error (fault.toFailure settings (.ofRegion source address)) := by
  have hend : (Cursor.ofRegion source address).isAtEnd = false := by
    cases source with
    | nil => exact absurd rfl h
    | cons first rest => rfl
  rw [decodeAt, outcome_decode, Cursor.address_ofRegion, hend]
  rfl

/-- The address of a cursor's position counts from the base and wraps. -/
theorem Cursor.toNat_address (cursor : Cursor) :
    cursor.address.toNat = (cursor.base.toNat + cursor.position) % 2 ^ 64 := by
  simp [Cursor.address]

/-- A successful call moves the cursor past the instruction. -/
theorem cursor_of_outcome_eq_ok (h : (decode settings cursor).outcome = .ok instruction) :
    (decode settings cursor).cursor =
      { cursor with position := cursor.position + instruction.length } := by
  obtain ⟨-, hdecode⟩ | ⟨fault, -, -, hdecode⟩ | ⟨found, after, -, -, hdecode⟩ :=
    decode_cases settings cursor
  · rw [hdecode] at h
    cases h
  · rw [hdecode] at h
    cases h
  · rw [hdecode] at h ⊢
    cases h
    rfl

/-- A failed call leaves the cursor where it was and names its address. -/
theorem cursor_of_outcome_eq_error {failure : Failure}
    (h : (decode settings cursor).outcome = .error failure) :
    (decode settings cursor).cursor = cursor ∧ failure.address = cursor.address := by
  obtain ⟨-, hdecode⟩ | ⟨fault, -, -, hdecode⟩ | ⟨found, after, -, -, hdecode⟩ :=
    decode_cases settings cursor
  · rw [hdecode] at h ⊢
    cases h
    exact ⟨rfl, rfl⟩
  · rw [hdecode] at h ⊢
    cases h
    exact ⟨rfl, rfl⟩
  · rw [hdecode] at h
    cases h

/-- A decode call moves the cursor within its region and does nothing else to it. -/
theorem region_decode_cursor (settings : Settings) (cursor : Cursor) :
    (decode settings cursor).cursor.region = cursor.region ∧
      (decode settings cursor).cursor.base = cursor.base := by
  cases h : (decode settings cursor).outcome with
  | ok instruction =>
      rw [cursor_of_outcome_eq_ok h]
      exact ⟨rfl, rfl⟩
  | error failure =>
      rw [(cursor_of_outcome_eq_error h).1]
      exact ⟨rfl, rfl⟩

/-- A decode call commits all or nothing. A decoded instruction lies within the length
limit and the remaining bytes, and the cursor moves by exactly its length; a failure
leaves the cursor where it was, and the same call fails the same way again. The region
and its base never change, and the final move of the cursor is never refused. -/
theorem decode_commits (settings : Settings) (cursor : Cursor) :
    (∀ instruction, (decode settings cursor).outcome = .ok instruction →
      instruction.address.toNat = (cursor.base.toNat + cursor.position) % 2 ^ 64 ∧
      1 ≤ instruction.length ∧ instruction.length ≤ max 1 (min settings.maxLength 15) ∧
      instruction.length ≤ cursor.remaining ∧
      (decode settings cursor).cursor.position = cursor.position + instruction.length) ∧
    (∀ failure, (decode settings cursor).outcome = .error failure →
      failure.address.toNat = (cursor.base.toNat + cursor.position) % 2 ^ 64 ∧
      (decode settings cursor).cursor.position = cursor.position ∧
      (decode settings (decode settings cursor).cursor).outcome = .error failure) ∧
    (decode settings cursor).cursor.region = cursor.region ∧
    (decode settings cursor).cursor.base = cursor.base ∧
    (∀ instruction after,
      readInstruction settings cursor.address cursor.lookahead = .ok (instruction, after) →
      ∀ bounds, cursor.advance instruction.length ≠ .error bounds) := by
  rw [← Cursor.toNat_address]
  obtain ⟨hregion, hbase⟩ := region_decode_cursor settings cursor
  refine ⟨?_, ?_, hregion, hbase, ?_⟩
  · intro instruction h
    obtain ⟨after, hread⟩ := outcome_eq_ok_iff.mp h
    obtain ⟨haddress, bytes, hencoded, -⟩ := readInstruction_sound rfl hread
    obtain ⟨hpos, hremaining⟩ := length_of_readInstruction_le hread
    rw [cursor_of_outcome_eq_ok h, haddress]
    exact ⟨rfl, hpos, hencoded.length_le, hremaining, rfl⟩
  · intro failure h
    obtain ⟨hcursor, haddress⟩ := cursor_of_outcome_eq_error h
    rw [hcursor, haddress]
    exact ⟨rfl, rfl, h⟩
  · intro instruction after hread bounds
    rw [advance_of_readInstruction hread]
    exact nofun

end LongMode
