import LongMode.Proofs.Commit

/-!
# Decoding and encoding undo each other

`decode_lossless` says that the bytes of a decoded instruction are its prefix bytes
followed by the bytes that the record's other fields write. `decodeAt_encoding_iff`
says that the records which decode from what they write are exactly the consistent
ones. Both are read off `outcome_eq_ok_iff_isEncodedBy`, which describes the outcome
of a decode call without the decoder.
-/

namespace LongMode

variable {settings : Settings} {cursor : Cursor} {instruction : Instruction}

/-- A decode call succeeds exactly when the region goes on with an encoding of the
instruction at the cursor. -/
theorem outcome_eq_ok_iff_isEncodedBy :
    (decode settings cursor).outcome = .ok instruction ↔
      instruction.address = cursor.address ∧
        ∃ bytes rest, cursor.region.drop cursor.position = bytes ++ rest ∧
          instruction.IsEncodedBy settings bytes := by
  rw [outcome_eq_ok_iff]
  refine ⟨?_, ?_⟩
  · intro h
    obtain ⟨after, hread⟩ := h
    obtain ⟨haddress, bytes, hencoded, hreads⟩ := (readInstruction_eq_ok_iff rfl).mp hread
    exact ⟨haddress, bytes, after.rest, Cursor.drop_region_of_reads hreads, hencoded⟩
  · intro h
    obtain ⟨haddress, bytes, rest, hregion, hencoded⟩ := h
    let after : Lookahead := { cursor.lookahead with consumed := bytes.length, rest }
    have hreads : cursor.lookahead.Reads bytes after :=
      ⟨hregion, (Nat.zero_add _).symm, rfl, rfl⟩
    exact ⟨after, (readInstruction_eq_ok_iff rfl).mpr ⟨haddress, bytes, hencoded, hreads⟩⟩

/-- A byte string is decoded exactly when it starts with an encoding of the
instruction. -/
theorem decodeAt_eq_ok_iff {source : List UInt8} {address : UInt64} :
    decodeAt settings source address = .ok instruction ↔
      instruction.address = address ∧
        ∃ bytes rest, source = bytes ++ rest ∧ instruction.IsEncodedBy settings bytes := by
  rw [decodeAt, outcome_eq_ok_iff_isEncodedBy, Cursor.address_ofRegion]
  exact Iff.rfl

/-! ## No byte is lost -/

/-- The number of bytes of the operands: ModR/M, SIB and displacement. -/
def Addressing.width (addressing : Addressing) : Nat :=
  1 + addressing.sib.toList.length + addressing.displacementSize.bytes

/-- An admitted displacement is written in as many bytes as its size says. -/
theorem DisplacementSize.Admits.length_encoding {size : DisplacementSize}
    {displacement : Option Int32} (h : size.Admits displacement) :
    (size.encoding displacement).length = size.bytes := by
  cases displacement with
  | none =>
      obtain rfl : size = .absent := by simpa using h.isSome_iff
      rfl
  | some number => exact LittleEndian.length_bytes _ _

/-- The fields behind the prefixes are written in as many bytes as they take one by
one. -/
theorem Instruction.WellFormed.length_body (h : instruction.WellFormed) :
    instruction.body.length =
      instruction.opcode.map.escapeBytes.length + 1 + instruction.addressing.elim 0 Addressing.width
        + instruction.immediate.elim 0 (fun immediate => immediate.size.toNat) := by
  have hoperands : (operandEncoding instruction.addressing instruction.displacement).length =
      instruction.addressing.elim 0 Addressing.width := by
    by_cases husage : instruction.opcode.entry.modrm = .absent
    · have hadmits := h.operands
      rw [husage, ModRMUsage.admits_absent_iff] at hadmits
      rw [hadmits.1]
      rfl
    · obtain ⟨addressing, haddressing, -, hadmits⟩ := (ModRMUsage.admits_iff husage).mp h.operands
      rw [haddressing]
      simp [operandEncoding, Addressing.encoding, Addressing.width, hadmits.length_encoding]
      omega
  have himmediate : (instruction.immediate.toList.flatMap Immediate.encoding).length =
      instruction.immediate.elim 0 (fun immediate => immediate.size.toNat) := by
    cases instruction.immediate with
    | none => rfl
    | some immediate => simp [Immediate.encoding]
  rw [Instruction.body_eq, List.length_append, List.length_append, hoperands, himmediate,
    Opcode.encoding, List.length_append, List.length_singleton]
  omega

/-- The run of prefixes of an encoding is as long as the record says. -/
theorem Instruction.IsEncodedBy.exists_run_length {bytes : List UInt8}
    (h : instruction.IsEncodedBy settings bytes) :
    ∃ run, bytes = run ++ instruction.body ∧
      Prefixes.run? settings.rexPolicy {} run = some instruction.prefixes ∧
      run.length = instruction.prefixes.count.toNat := by
  obtain ⟨run, hbytes, hrun⟩ := h.exists_run
  have hlength : run.length ≤ bytes.length := by
    rw [hbytes, List.length_append]
    omega
  have hshort : bytes.length ≤ 15 := by
    rw [← h.length_eq]
    exact Nat.le_trans h.length_le settings.lengthLimit_le
  exact ⟨run, hbytes, hrun, (Prefixes.toNat_count_of_run? (by omega) hrun).symm⟩

/-- The bytes of a decoded instruction are exactly its prefix bytes, as many as the record
counts, followed by the bytes that its other fields write: escape bytes and opcode,
ModR/M, SIB, displacement and immediate. Its length is the sum of these parts. -/
theorem decode_lossless (h : (decode settings cursor).outcome = .ok instruction) :
    ∃ run : List UInt8,
      run.length = instruction.prefixes.count.toNat ∧
      (∀ byte ∈ run, LegacyPrefix.isLegacy byte = true ∨ Rex.isRex byte = true) ∧
      (cursor.region.drop cursor.position).take instruction.length = run ++ instruction.body ∧
      instruction.length =
        instruction.prefixes.count.toNat
          + (instruction.opcode.map.escapeBytes.length + 1
            + instruction.addressing.elim 0 Addressing.width
            + instruction.immediate.elim 0 (fun immediate => immediate.size.toNat)) := by
  obtain ⟨-, bytes, rest, hregion, hencoded⟩ := outcome_eq_ok_iff_isEncodedBy.mp h
  obtain ⟨run, hbytes, hrun, hcount⟩ := hencoded.exists_run_length
  refine ⟨run, hcount, ?_, ?_, ?_⟩
  · intro byte hbyte
    have hprefix := Prefixes.isPrefixByte_of_run? hrun byte hbyte
    exact (Bool.or_eq_true _ _).mp hprefix
  · rw [hregion, hencoded.length_eq, List.take_left, hbytes]
  · rw [hencoded.length_eq, hbytes, List.length_append, hcount, hencoded.wellFormed.length_body]

/-- A locked addition of a constant to memory, with a scaled index and a short
displacement, one byte into its region. -/
theorem decode_lossless_locked_addition :
    ∃ instruction,
      (decode {} ⟨[0x90, 0xF0, 0x48, 0x81, 0x44, 0x8B, 0xF0, 0x78, 0x56, 0x34, 0x12], 1,
        0x1000⟩).outcome = .ok instruction ∧
      instruction.length = 10 ∧
      ∃ run : List UInt8,
        run.length = instruction.prefixes.count.toNat ∧
        (∀ byte ∈ run, LegacyPrefix.isLegacy byte = true ∨ Rex.isRex byte = true) ∧
        [0xF0, 0x48, 0x81, 0x44, 0x8B, 0xF0, 0x78, 0x56, 0x34, 0x12] = run ++ instruction.body := by
  refine ⟨_, rfl, rfl, ?_⟩
  obtain ⟨run, hcount, hprefix, hbytes, -⟩ := @decode_lossless {}
    ⟨[0x90, 0xF0, 0x48, 0x81, 0x44, 0x8B, 0xF0, 0x78, 0x56, 0x34, 0x12], 1, 0x1000⟩ _ rfl
  exact ⟨run, hcount, hprefix, hbytes⟩

/-! ## Consistent records decode from what they write -/

namespace Instruction

/-- A record is consistent when its fields agree with the table entry of its opcode and
with each other, it has one prefix byte for each category that is set, and its length
is that of the bytes it writes and within the limit. -/
structure Consistent (instruction : Instruction) (settings : Settings) : Prop where
  wellFormed : instruction.WellFormed
  count_eq : instruction.prefixes.count.toNat = instruction.prefixes.categories
  length_eq : instruction.length = instruction.encoding.length
  length_le : instruction.length ≤ settings.lengthLimit

/-- A consistent record is encoded by the bytes it writes. -/
theorem Consistent.isEncodedBy (h : instruction.Consistent settings) :
    instruction.IsEncodedBy settings instruction.encoding := by
  refine ⟨h.wellFormed, ⟨instruction.prefixes.encoding, rfl, ?_⟩, h.length_eq, h.length_le⟩
  have hcount : UInt8.ofNat instruction.prefixes.encoding.length = instruction.prefixes.count := by
    rw [Prefixes.length_encoding, ← h.count_eq, UInt8.ofNat_toNat]
  rw [Prefixes.run?_encoding, hcount]

/-- The bytes that a record writes for its prefixes are prefix bytes. -/
theorem isPrefixByte_of_mem_encoding (prefixes : Prefixes) :
    ∀ byte ∈ prefixes.encoding, isPrefixByte byte = true :=
  Prefixes.isPrefixByte_of_run? (Prefixes.run?_encoding .strict prefixes)

end Instruction

/-- Two runs of prefix bytes in front of the same body and in the same string are equal. -/
theorem run_eq_of_append_eq {run other body rest tail : List UInt8}
    (hrun : ∀ byte ∈ run, isPrefixByte byte = true)
    (hother : ∀ byte ∈ other, isPrefixByte byte = true)
    (hbody : ∃ first last, body = first :: last ∧ isPrefixByte first = false)
    (h : run ++ body ++ rest = other ++ body ++ tail) : run = other := by
  obtain ⟨first, last, rfl, hfirst⟩ := hbody
  have htake := congrArg (List.takeWhile isPrefixByte) h
  simpa [List.takeWhile_append_of_pos hrun, List.takeWhile_append_of_pos hother, hfirst] using htake

/-- Decoding undoes encoding: a record decodes from the bytes it writes, whatever
follows them, exactly when it is consistent. -/
theorem decodeAt_encoding_iff (settings : Settings) (instruction : Instruction)
    (tail : List UInt8) :
    decodeAt settings (instruction.encoding ++ tail) instruction.address = .ok instruction ↔
      instruction.Consistent settings := by
  rw [decodeAt_eq_ok_iff]
  refine ⟨?_, ?_⟩
  · intro h
    obtain ⟨-, bytes, rest, hsource, hencoded⟩ := h
    obtain ⟨run, hbytes, hrun, hcount⟩ := hencoded.exists_run_length
    -- Both decompositions of the source end their prefixes at the first other byte.
    have hsame : instruction.prefixes.encoding = run := by
      rw [hbytes] at hsource
      exact run_eq_of_append_eq (Instruction.isPrefixByte_of_mem_encoding _)
        (Prefixes.isPrefixByte_of_run? hrun) hencoded.wellFormed.exists_body_eq_cons hsource
    refine ⟨hencoded.wellFormed, ?_, ?_, hencoded.length_le⟩
    · rw [← hcount, ← hsame, Prefixes.length_encoding]
    · rw [hencoded.length_eq, hbytes, ← hsame]
      rfl
  · intro h
    exact ⟨rfl, instruction.encoding, tail, rfl, h.isEncodedBy⟩

/-- The locked addition of a constant to memory is a consistent record, just below the
top of the address space. -/
theorem consistent_locked_addition :
    Instruction.Consistent
      { address := 0xFFFFFFFFFFFFFFF8
        length := 10
        opcode := { map := .oneByte, byte := 0x81 }
        prefixes := { lock := true, rex := some { w := true }, count := 2 }
        addressing := some
          { modrm := { mode := 1, reg := 0, rm := 4 }
            sib := some { scale := 2, index := 1, base := 3 }
            displacementSize := .byte
            ripRelative := false
            registerDirect := false }
        displacement := some (-16)
        immediate := some { value := 0x12345678, size := 4 } } {} :=
  (decodeAt_encoding_iff {} _ [0xCC]).mp rfl

end LongMode
