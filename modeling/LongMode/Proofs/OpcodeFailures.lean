import LongMode.Proofs.ScannedPrefixes

/-!
# When an opcode is reported as malformed

The byte behind the longest run of prefixes leads the opcode, and three things are then looked at
in turn: the limit that the run must leave room within, the table entry of the opcode, and for POP
the byte that follows. `readBody_eq_unmappedOpcode_iff` and `readBody_eq_unsupported_iff` say what
the opcode bytes must be for the two reports, and `readInstruction_eq_malformed_iff` puts the
prefixes in front. Nothing that is read later can come before these reports, so
`decodeAt_malformedOpcode` needs no condition on the rest of the bytes.
-/

namespace LongMode

namespace Opcode

variable {opcode : Opcode} {input : Lookahead} {byte : UInt8}

/-! ## Entries without a layout -/

/-- Bytes that lead to another map are the only ones whose entry says so. -/
theorem IsReachable.kind_ne_escape (h : opcode.IsReachable) : opcode.entry.kind ≠ .escape := by
  have hbands (map : OpcodeMap) : ∀ band ∈ map.bands, band.entry.kind = .escape →
      band.first = band.last ∧ (map = .oneByte ∧ band.first = 0x0F ∨
        map = .twoByte ∧ (band.first = 0x38 ∨ band.first = 0x3A)) := by
    cases map <;> decide +kernel
  intro hkind
  obtain ⟨band, hband, hfirst, hlast, hentry⟩ :=
    exists_band_of_kind (by rw [hkind]; decide)
  obtain ⟨hsingle, hescape⟩ := hbands opcode.map band hband (by rw [hentry, hkind])
  obtain hbyte : opcode.byte = band.first := UInt8.le_antisymm (hsingle ▸ hlast) hfirst
  obtain ⟨hmap, h0F⟩ | ⟨hmap, h38 | h3A⟩ := hescape
  · exact h.oneByte hmap (hbyte.trans h0F)
  · exact (h.twoByte hmap).1 (hbyte.trans h38)
  · exact (h.twoByte hmap).2 (hbyte.trans h3A)

/-- The lead bytes of encoding families outside the four maps. -/
def foreignLeads : List UInt8 :=
  [0x62, 0xC4, 0xC5]

/-- Only lead bytes of the one-byte map belong to other encoding families. -/
theorem kind_eq_unsupported_iff :
    opcode.entry.kind = .unsupported ↔ opcode.map = .oneByte ∧ opcode.byte ∈ foreignLeads := by
  have hbands (map : OpcodeMap) : ∀ band ∈ map.bands, band.entry.kind = .unsupported →
      map = .oneByte ∧ band.first ∈ foreignLeads ∧ band.last ∈ foreignLeads ∧
        band.last.toNat ≤ band.first.toNat + 1 := by
    cases map <;> decide +kernel
  refine ⟨?_, ?_⟩
  · intro hkind
    obtain ⟨band, hband, hfirst, hlast, hentry⟩ :=
      exists_band_of_kind (by rw [hkind]; decide)
    obtain ⟨hmap, hlow, hhigh, hwidth⟩ := hbands opcode.map band hband (by rw [hentry, hkind])
    refine ⟨hmap, ?_⟩
    -- The bands are so narrow that they have no bytes but their ends.
    have hends : opcode.byte = band.first ∨ opcode.byte = band.last := by
      rw [UInt8.le_iff_toNat_le] at hfirst hlast
      rw [← UInt8.toNat_inj, ← UInt8.toNat_inj]
      omega
    obtain hbyte | hbyte := hends
    · rw [hbyte]
      exact hlow
    · rw [hbyte]
      exact hhigh
  · rintro ⟨hmap, hbyte⟩
    obtain ⟨map, byte⟩ := opcode
    obtain rfl : map = .oneByte := hmap
    simp only [foreignLeads, List.mem_cons, List.not_mem_nil, or_false] at hbyte
    obtain rfl | rfl | rfl := hbyte
    · decide
    · decide
    · decide

theorem layout_eq_unmappedOpcode_iff {found : Opcode} (h : opcode.IsReachable) :
    opcode.layout = .error (.malformed (.unmappedOpcode found)) ↔
      opcode = found ∧ opcode.entry.kind = .invalid := by
  have hescape := h.kind_ne_escape
  unfold Opcode.layout
  cases hkind : opcode.entry.kind <;> simp_all

theorem layout_eq_unsupported_iff :
    opcode.layout = .error (.malformed (.unsupported byte)) ↔
      opcode = ⟨.oneByte, byte⟩ ∧ byte ∈ foreignLeads := by
  have hlayout : opcode.layout = .error (.malformed (.unsupported byte)) ↔
      opcode.entry.kind = .unsupported ∧ opcode.byte = byte := by
    unfold Opcode.layout
    cases hkind : opcode.entry.kind <;> simp [hkind]
  rw [hlayout, kind_eq_unsupported_iff]
  refine ⟨?_, ?_⟩
  · rintro ⟨⟨hmap, hbyte⟩, rfl⟩
    obtain ⟨map, byte⟩ := opcode
    obtain rfl : map = .oneByte := hmap
    exact ⟨rfl, hbyte⟩
  · rintro ⟨rfl, hbyte⟩
    exact ⟨⟨rfl, hbyte⟩, rfl⟩

/-! ## The opcode that bytes start with -/

theorem isReachable_iff :
    opcode.IsReachable ↔
      opcode ≠ ⟨.oneByte, 0x0F⟩ ∧ opcode ≠ ⟨.twoByte, 0x38⟩ ∧ opcode ≠ ⟨.twoByte, 0x3A⟩ := by
  refine ⟨?_, ?_⟩
  · intro h
    refine ⟨?_, ?_, ?_⟩
    · rintro rfl
      exact h.oneByte rfl rfl
    · rintro rfl
      exact (h.twoByte rfl).1 rfl
    · rintro rfl
      exact (h.twoByte rfl).2 rfl
  · rintro ⟨h0F, h38, h3A⟩
    obtain ⟨map, byte⟩ := opcode
    refine ⟨?_, ?_⟩
    · rintro rfl rfl
      exact h0F rfl
    · rintro rfl
      exact ⟨fun hbyte => h38 (congrArg _ hbyte), fun hbyte => h3A (congrArg _ hbyte)⟩

/-- The bytes of an opcode that can be read are all that reading it takes. -/
theorem exists_read_iff :
    (∃ after, Opcode.read input = .ok (opcode, after)) ↔
      opcode.IsReachable ∧ opcode.encoding <+: input.rest := by
  refine ⟨?_, ?_⟩
  · rintro ⟨after, hread⟩
    obtain ⟨hreachable, hreads⟩ := read_sound hread
    exact ⟨hreachable, after.rest, hreads.rest_eq.symm⟩
  · rintro ⟨hreachable, rest, hrest⟩
    let after : Lookahead :=
      { input with consumed := input.consumed + opcode.encoding.length, rest }
    exact ⟨after, read_complete hreachable ⟨hrest.symm, rfl, rfl, rfl⟩⟩

/-- A byte that leads to no other map is an opcode of its own. -/
theorem read_oneByte_iff {after : Lookahead} (h : byte ≠ 0x0F) :
    Opcode.read input = .ok (⟨.oneByte, byte⟩, after) ↔ input.Reads [byte] after := by
  rw [read_eq_ok_iff]
  exact ⟨fun hread => hread.2, fun hreads => ⟨⟨fun _ => h, nofun⟩, hreads⟩⟩

end Opcode

/-! ## Behind the prefixes -/

variable {settings : Settings} {address : UInt64} {prefixes : Prefixes} {input : Lookahead}
  {limit : Nat} {opcode : Opcode} {byte : UInt8} {reason : Malformation}

/-- What an opcode is refused for, other than a length: its table entry, or a reg field that POP
does not have. -/
def Opcode.RefusedFor (opcode : Opcode) (reason : Malformation) (behind : List UInt8) : Prop :=
  opcode.layout = .error (.malformed reason) ∨
    (opcode = .pop ∧ (∃ next, behind.head? = some next ∧ OperandByte.middle next ≠ 0) ∧
      reason = .unsupported Opcode.pop.byte)

theorem Malformation.unmappedOpcode_ne_tooLong (opcode : Opcode) (length limit : Nat) :
    unmappedOpcode opcode ≠ tooLong length limit :=
  nofun

theorem Malformation.unsupported_ne_tooLong (byte : UInt8) (length limit : Nat) :
    unsupported byte ≠ tooLong length limit :=
  nofun

/-- An opcode is refused before anything that follows it is read. -/
theorem readBody_eq_malformed_iff (hreason : ∀ length limit, reason ≠ .tooLong length limit) :
    readBody limit address prefixes input = .error (.malformed reason) ↔
      ∃ opcode after, Opcode.read input = .ok (opcode, after) ∧
        opcode.RefusedFor reason after.rest := by
  refine ⟨?_, ?_⟩
  · intro h
    obtain ⟨bounds, hbounds⟩ | ⟨opcode, after, hopcode, hlayout | ⟨hpop, hnext, hfault⟩⟩ |
      ⟨length, -, hlong⟩ := readBody_eq_error h
    · cases hbounds
    · exact ⟨opcode, after, hopcode, .inl hlayout⟩
    · exact ⟨opcode, after, hopcode, .inr ⟨hpop, hnext, Fault.malformed.inj hfault⟩⟩
    · exact absurd (Fault.malformed.inj hlong) (hreason length limit)
  · rintro ⟨opcode, after, hopcode, hlayout | ⟨rfl, ⟨next, hnext, hmiddle⟩, rfl⟩⟩
    · refine Reader.bind_eq_error_iff.mpr (.inr ⟨opcode, after, hopcode, ?_⟩)
      refine Reader.bind_eq_error_iff.mpr (.inl ?_)
      rw [hlayout]
      rfl
    · refine Reader.bind_eq_error_iff.mpr (.inr ⟨.pop, after, hopcode, ?_⟩)
      refine Reader.bind_eq_error_iff.mpr (.inr ⟨_, after, rfl, ?_⟩)
      refine Reader.bind_eq_error_iff.mpr (.inl ?_)
      refine Reader.bind_eq_error_iff.mpr
        (.inr ⟨next, after, Reader.peek_eq_ok_iff.mpr ⟨hnext, rfl⟩, ?_⟩)
      rw [if_pos hmiddle]
      rfl

/-- An opcode is reported as unmapped where its bytes come next and its entry is invalid. -/
theorem readBody_eq_unmappedOpcode_iff :
    readBody limit address prefixes input = .error (.malformed (.unmappedOpcode opcode)) ↔
      opcode.IsReachable ∧ opcode.encoding <+: input.rest ∧ opcode.entry.kind = .invalid := by
  rw [readBody_eq_malformed_iff (Malformation.unmappedOpcode_ne_tooLong opcode), ← and_assoc,
    ← Opcode.exists_read_iff]
  refine ⟨?_, ?_⟩
  · rintro ⟨found, after, hread, hlayout | ⟨-, -, hpop⟩⟩
    · obtain ⟨rfl, hkind⟩ :=
        (Opcode.layout_eq_unmappedOpcode_iff (Opcode.read_sound hread).1).mp hlayout
      exact ⟨⟨after, hread⟩, hkind⟩
    · cases hpop
  · rintro ⟨⟨after, hread⟩, hkind⟩
    refine ⟨opcode, after, hread, .inl ?_⟩
    exact (Opcode.layout_eq_unmappedOpcode_iff (Opcode.read_sound hread).1).mpr ⟨rfl, hkind⟩

/-- The reg field of a ModR/M byte in its place. -/
theorem OperandByte.middle_ne_zero_iff (byte : UInt8) : middle byte ≠ 0 ↔ byte &&& 0x38 ≠ 0 := by
  have h : ∀ bits : BitVec 8, middle ⟨bits⟩ ≠ 0 ↔ (⟨bits⟩ : UInt8) &&& 0x38 ≠ 0 := by
    decide +kernel
  exact h byte.toBitVec

/-- A byte is reported as unsupported where it leads another encoding family, and the byte of
POP also where the reg field that follows says that it leads one. -/
theorem readBody_eq_unsupported_iff :
    readBody limit address prefixes input = .error (.malformed (.unsupported byte)) ↔
      input.rest.head? = some byte ∧ (byte ∈ Opcode.foreignLeads ∨
        byte = 0x8F ∧ ∃ next, input.rest[1]? = some next ∧ next &&& 0x38 ≠ 0) := by
  rw [readBody_eq_malformed_iff (Malformation.unsupported_ne_tooLong byte)]
  refine ⟨?_, ?_⟩
  · rintro ⟨opcode, after, hread, hlayout | ⟨rfl, ⟨next, hnext, hmiddle⟩, hbyte⟩⟩
    · obtain ⟨rfl, hlead⟩ := Opcode.layout_eq_unsupported_iff.mp hlayout
      exact ⟨(Opcode.read_sound hread).2.head?_eq, .inl hlead⟩
    · obtain rfl : byte = 0x8F := Malformation.unsupported.inj hbyte
      have hrest : input.rest = 0x8F :: after.rest := (Opcode.read_sound hread).2.rest_eq
      rw [hrest]
      refine ⟨rfl, .inr ⟨rfl, next, ?_, (OperandByte.middle_ne_zero_iff next).mp hmiddle⟩⟩
      rw [List.getElem?_cons_succ, ← List.head?_eq_getElem?]
      exact hnext
  · rintro ⟨hhead, hbyte⟩
    obtain ⟨rest, hrest⟩ := List.head?_eq_some_iff.mp hhead
    let after : Lookahead := { input with consumed := input.consumed + 1, rest }
    have hreads : input.Reads [byte] after := ⟨hrest, rfl, rfl, rfl⟩
    obtain hlead | ⟨rfl, next, hnext, hmiddle⟩ := hbyte
    · have hescape : byte ≠ 0x0F := by
        rintro rfl
        exact absurd hlead (by decide)
      exact ⟨_, after, (Opcode.read_oneByte_iff hescape).mpr hreads,
        .inl (Opcode.layout_eq_unsupported_iff.mpr ⟨rfl, hlead⟩)⟩
    · rw [hrest, List.getElem?_cons_succ, ← List.head?_eq_getElem?] at hnext
      exact ⟨_, after, (Opcode.read_oneByte_iff (by decide)).mpr hreads,
        .inr ⟨rfl, ⟨next, hnext, (OperandByte.middle_ne_zero_iff next).mpr hmiddle⟩, rfl⟩⟩

/-! ## In front of them -/

/-- A run of prefixes that leaves no room for an opcode is refused before the opcode is looked
at. -/
theorem readInstruction_eq_tooLong_of_le_leadingRun (hfresh : input.consumed = 0)
    (hlong : settings.lengthLimit ≤ (settings.rexPolicy.leadingRun input.rest).length) :
    readInstruction settings address input =
      .error (.malformed (.tooLong (settings.lengthLimit + 1) settings.lengthLimit)) := by
  rw [readInstruction_eq_bind]
  exact Reader.bind_eq_error_iff.mpr (.inl (Prefixes.scan_eq_tooLong hfresh hlong))

/-- An encoding is malformed, other than by its length, exactly when the longest run of prefixes
leaves room for an opcode and what follows the run is malformed. -/
theorem readInstruction_eq_malformed_iff (hfresh : input.consumed = 0)
    (hreason : ∀ length limit, reason ≠ .tooLong length limit) :
    readInstruction settings address input = .error (.malformed reason) ↔
      (settings.rexPolicy.leadingRun input.rest).length < settings.lengthLimit ∧
        readBody settings.lengthLimit address
            (Prefixes.declared (settings.rexPolicy.leadingRun input.rest))
            { input with
              consumed := (settings.rexPolicy.leadingRun input.rest).length
              rest := settings.rexPolicy.behindRun input.rest } =
          .error (.malformed reason) := by
  by_cases hlong : settings.lengthLimit ≤ (settings.rexPolicy.leadingRun input.rest).length
  · rw [readInstruction_eq_tooLong_of_le_leadingRun hfresh hlong]
    refine ⟨?_, fun h => absurd h.1 (Nat.not_lt_of_le hlong)⟩
    intro h
    exact absurd (Fault.malformed.inj (Except.error.inj h)).symm (hreason _ _)
  · have hroom := Nat.lt_of_not_le hlong
    rw [readInstruction_eq_bind, Reader.bind_apply]
    by_cases hbehind : settings.rexPolicy.behindRun input.rest = []
    · rw [Prefixes.scan_eq_outOfBounds hfresh hroom hbehind, hbehind]
      refine ⟨nofun, ?_⟩
      rintro ⟨-, hbody⟩
      -- There is no opcode to refuse.
      obtain ⟨opcode, after, hread, -⟩ := (readBody_eq_malformed_iff hreason).mp hbody
      have hstart := (Opcode.exists_read_iff.mp ⟨after, hread⟩).2
      exact absurd (List.prefix_nil.mp hstart) (by simp [Opcode.encoding])
    · rw [Prefixes.scan_eq_declared hfresh hroom hbehind]
      exact ⟨fun h => ⟨hroom, h⟩, fun h => h.2⟩

theorem decodeAt_eq_malformed_iff {source : List UInt8} :
    decodeAt settings source address = .error ⟨address, .malformed reason⟩ ↔
      readInstruction settings address (Cursor.ofRegion source address).lookahead =
        .error (.malformed reason) := by
  refine ⟨?_, decodeAt_of_readInstruction_eq_malformed⟩
  intro h
  have hread := readInstruction_of_cause_eq_malformed h rfl
  rwa [Cursor.address_ofRegion] at hread

/-- Malformed opcodes are reported exactly. With `k` the length of the longest run of prefixes
that the policy admits, an opcode is unmapped when the run leaves room for it, its bytes stand
behind the run and its table entry is invalid. A byte is unsupported when it stands there and
leads another encoding family, as the byte of POP does with a nonzero reg field behind it. A run
that leaves no room is too long whatever follows. How many bytes follow the opcode makes no
difference, and neither does a limit that its own bytes pass. -/
theorem decodeAt_malformedOpcode (settings : Settings) (source : List UInt8) (address : UInt64) :
    let limit := max 1 (min settings.maxLength 15)
    let k := (settings.rexPolicy.leadingRun source).length
    IsGreatest {count | count ≤ source.length ∧ settings.rexPolicy.Admits (source.take count)} k ∧
    (∀ opcode, decodeAt settings source address =
        .error ⟨address, .malformed (.unmappedOpcode opcode)⟩ ↔
      k < limit ∧ opcode.map.escapeBytes ++ [opcode.byte] <+: source.drop k ∧
        opcode.entry.kind = .invalid ∧ opcode ≠ ⟨.oneByte, 0x0F⟩ ∧
        opcode ≠ ⟨.twoByte, 0x38⟩ ∧ opcode ≠ ⟨.twoByte, 0x3A⟩) ∧
    (∀ byte, decodeAt settings source address =
        .error ⟨address, .malformed (.unsupported byte)⟩ ↔
      k < limit ∧ source[k]? = some byte ∧ (byte ∈ [0x62, 0xC4, 0xC5] ∨
        byte = 0x8F ∧ ∃ next, source[k + 1]? = some next ∧ next &&& 0x38 ≠ 0)) ∧
    (limit ≤ k → decodeAt settings source address =
      .error ⟨address, .malformed (.tooLong (limit + 1) limit)⟩) := by
  intro limit k
  have hbehind : source.drop k = settings.rexPolicy.behindRun source :=
    settings.rexPolicy.drop_length_leadingRun source
  refine ⟨settings.rexPolicy.isGreatest_length_leadingRun source, ?_, ?_, ?_⟩
  · intro opcode
    rw [decodeAt_eq_malformed_iff, readInstruction_eq_malformed_iff rfl
      (Malformation.unmappedOpcode_ne_tooLong opcode), readBody_eq_unmappedOpcode_iff,
      Opcode.isReachable_iff, hbehind]
    refine and_congr_right fun _ => ?_
    exact ⟨fun ⟨hreachable, hstart, hkind⟩ => ⟨hstart, hkind, hreachable⟩,
      fun ⟨hstart, hkind, hreachable⟩ => ⟨hreachable, hstart, hkind⟩⟩
  · intro byte
    have hhead : source[k]? = (settings.rexPolicy.behindRun source).head? := by
      rw [← hbehind, List.head?_drop]
    have hnext : source[k + 1]? = (settings.rexPolicy.behindRun source)[1]? := by
      rw [← hbehind, List.getElem?_drop]
    rw [decodeAt_eq_malformed_iff, readInstruction_eq_malformed_iff rfl
      (Malformation.unsupported_ne_tooLong byte), readBody_eq_unsupported_iff, hhead, hnext]
    exact Iff.rfl
  · intro hlong
    exact decodeAt_of_readInstruction_eq_malformed
      (readInstruction_eq_tooLong_of_le_leadingRun rfl hlong)

end LongMode
