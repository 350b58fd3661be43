import LongMode.Proofs.Faults
import LongMode.Proofs.RoundTrip

/-!
# What the length limit changes

The limit is enforced in two places. The scan of the prefixes fails when a run of them leaves
no room for an opcode (`Prefixes.scanFrom_eq_tooLong`), and an instruction that was read to
its end is refused when it turns out to be too long (`readBody_of_eq_ok`). Nothing else in
a reading depends on the limit, so `decodeAt_lengthLimit` can say what every limit makes of
an instruction that the architectural limit admits.
-/

namespace LongMode

/-! ## A limit reached within the prefixes -/

/-- A scan fails on a run that fills its room. -/
theorem Prefixes.scanFrom_eq_tooLong {policy : RexPolicy} {prefixes result : Prefixes}
    {limit room : Nat} {input : Lookahead} {run rest : List UInt8} (hroom : room ≤ run.length)
    (hrun : prefixes.run? policy run = some result) (hrest : input.rest = run ++ rest) :
    scanFrom policy limit room prefixes input =
      .error (.malformed (.tooLong (input.consumed + room + 1) limit)) := by
  induction room generalizing prefixes input run with
  | zero => exact scanFrom_zero policy limit prefixes input
  | succ room ih =>
      cases run with
      | nil => exact absurd hroom (Nat.not_succ_le_zero room)
      | cons byte run =>
          obtain ⟨next, hstep, hrun⟩ := Option.bind_eq_some_iff.mp hrun
          have hrest : input.rest = byte :: (run ++ rest) := hrest
          rw [scanFrom_of_rest_eq_cons policy limit room prefixes hrest, hstep]
          dsimp only
          rw [ih (Nat.le_of_succ_le_succ hroom) hrun rfl,
            show input.consumed + 1 + room + 1 = input.consumed + (room + 1) + 1 by omega]

/-! ## A limit passed at the end -/

variable {address : UInt64} {prefixes : Prefixes} {input after : Lookahead}
  {instruction : Instruction}

/-- What follows the prefixes is recorded with them. It is read in the same way under every
limit, and refused at the end if it is too long. -/
theorem readBody_of_eq_ok {wide : Nat}
    (h : readBody wide address prefixes input = .ok (instruction, after)) :
    instruction.prefixes = prefixes ∧
      ∀ limit < instruction.length, readBody limit address prefixes input =
        .error (.malformed (.tooLong instruction.length limit)) := by
  obtain ⟨opcode, l1, hopcode, h⟩ := Reader.bind_eq_ok_iff.mp h
  obtain ⟨layout, l2, hlayout, h⟩ := Reader.bind_eq_ok_iff.mp h
  obtain ⟨_, l3, hcheck, h⟩ := Reader.bind_eq_ok_iff.mp h
  obtain ⟨operands, l4, hoperands, h⟩ := Reader.bind_eq_ok_iff.mp h
  obtain ⟨immediate, l5, himmediate, h⟩ := Reader.bind_eq_ok_iff.mp h
  obtain ⟨length, l6, hlength, h⟩ := Reader.bind_eq_ok_iff.mp h
  by_cases hwide : wide < length
  · rw [if_pos hwide] at h
    exact absurd h Reader.fail_ne_ok
  · rw [if_neg hwide] at h
    obtain ⟨rfl, -⟩ := Reader.pure_eq_ok_iff.mp h
    refine ⟨rfl, ?_⟩
    intro limit hlong
    refine Reader.bind_eq_error_iff.mpr (.inr ⟨opcode, l1, hopcode, ?_⟩)
    refine Reader.bind_eq_error_iff.mpr (.inr ⟨layout, l2, hlayout, ?_⟩)
    refine Reader.bind_eq_error_iff.mpr (.inr ⟨_, l3, hcheck, ?_⟩)
    refine Reader.bind_eq_error_iff.mpr (.inr ⟨operands, l4, hoperands, ?_⟩)
    refine Reader.bind_eq_error_iff.mpr (.inr ⟨immediate, l5, himmediate, ?_⟩)
    refine Reader.bind_eq_error_iff.mpr (.inr ⟨length, l6, hlength, ?_⟩)
    rw [if_pos hlong]
    rfl

/-! ## One instruction under two limits -/

variable {settings wide : Settings}

/-- An instruction is read as a run of prefixes, as many as it records, and what follows
them. -/
theorem exists_run_of_readInstruction (hfresh : input.consumed = 0)
    (h : readInstruction settings address input = .ok (instruction, after)) :
    ∃ run between, run.length = instruction.prefixes.count.toNat ∧
      Prefixes.run? settings.rexPolicy {} run = some instruction.prefixes ∧
      instruction.prefixes.StopsAt settings.rexPolicy between.rest ∧ input.Reads run between ∧
      readBody settings.lengthLimit address instruction.prefixes between =
        .ok (instruction, after) := by
  rw [readInstruction_eq_bind] at h
  obtain ⟨prefixes, between, hscan, hbody⟩ := Reader.bind_eq_ok_iff.mp h
  obtain ⟨run, hroom, hrun, hstop, hreads⟩ := Prefixes.scan_eq_ok_iff.mp hscan
  obtain rfl := (readBody_of_eq_ok hbody).1
  have hlimit : settings.lengthLimit ≤ 15 := settings.lengthLimit_le
  have hcount := Prefixes.toNat_count_of_run? (by omega) hrun
  exact ⟨run, between, hcount.symm, hrun, hstop, hreads, hbody⟩

/-- An instruction that is too long is refused with its length, if its prefixes leave room
for an opcode. -/
theorem readInstruction_eq_tooLong (hfresh : input.consumed = 0)
    (h : readInstruction wide address input = .ok (instruction, after))
    (hpolicy : wide.rexPolicy = settings.rexPolicy)
    (hcount : instruction.prefixes.count.toNat < settings.lengthLimit)
    (hlong : settings.lengthLimit < instruction.length) :
    readInstruction settings address input =
      .error (.malformed (.tooLong instruction.length settings.lengthLimit)) := by
  obtain ⟨run, between, hlength, hrun, hstop, hreads, hbody⟩ :=
    exists_run_of_readInstruction hfresh h
  rw [hpolicy] at hrun hstop
  have hscan : Prefixes.scan settings.rexPolicy settings.lengthLimit input =
      .ok (instruction.prefixes, between) :=
    Prefixes.scan_eq_ok_iff.mpr ⟨run, by omega, hrun, hstop, hreads⟩
  rw [readInstruction_eq_bind]
  exact Reader.bind_eq_error_iff.mpr
    (.inr ⟨_, between, hscan, (readBody_of_eq_ok hbody).2 _ hlong⟩)

/-- An instruction whose prefixes leave no room for an opcode is refused at the first byte
behind the limit. -/
theorem readInstruction_eq_tooLong_of_le_count (hfresh : input.consumed = 0)
    (h : readInstruction wide address input = .ok (instruction, after))
    (hpolicy : wide.rexPolicy = settings.rexPolicy)
    (hcount : settings.lengthLimit ≤ instruction.prefixes.count.toNat) :
    readInstruction settings address input =
      .error (.malformed (.tooLong (settings.lengthLimit + 1) settings.lengthLimit)) := by
  obtain ⟨run, between, hlength, hrun, -, hreads, -⟩ := exists_run_of_readInstruction hfresh h
  rw [hpolicy] at hrun
  rw [← hlength] at hcount
  have hscan : Prefixes.scanFrom settings.rexPolicy settings.lengthLimit settings.lengthLimit {}
      input = _ := Prefixes.scanFrom_eq_tooLong hcount hrun hreads.rest_eq
  rw [hfresh, Nat.zero_add] at hscan
  rw [readInstruction_eq_bind]
  refine Reader.bind_eq_error_iff.mpr (.inl ?_)
  show Prefixes.scanFrom _ _ (settings.lengthLimit - input.consumed) {} input = _
  rw [hfresh]
  exact hscan

/-- A reading that fails because of the limit names the limit and a length behind it. -/
theorem lt_of_readInstruction_eq_tooLong {length limit : Nat} (hfresh : input.consumed = 0)
    (h : readInstruction settings address input = .error (.malformed (.tooLong length limit))) :
    limit = settings.lengthLimit ∧ settings.lengthLimit < length := by
  rw [readInstruction_eq_bind] at h
  obtain h | ⟨prefixes, between, -, h⟩ := Reader.bind_eq_error_iff.mp h
  · obtain ⟨bounds, hbounds⟩ | hlong := Prefixes.scanFrom_eq_error h
    · cases hbounds
    · cases hlong
      exact ⟨rfl, by omega⟩
  · obtain ⟨bounds, hbounds⟩ | ⟨opcode, -, -, hlayout | ⟨-, -, hpop⟩⟩ | ⟨found, hlt, hlong⟩ :=
      readBody_eq_error h
    · cases hbounds
    · exact absurd hlayout (opcode.layout_ne_tooLong _ _)
    · cases hpop
    · cases hlong
      exact ⟨rfl, hlt⟩

/-- An encoding under one limit is an encoding under every other that it does not exceed. -/
theorem Instruction.IsEncodedBy.of_length_le {bytes : List UInt8}
    (h : instruction.IsEncodedBy wide bytes) (hpolicy : wide.rexPolicy = settings.rexPolicy)
    (hlength : instruction.length ≤ settings.lengthLimit) :
    instruction.IsEncodedBy settings bytes where
  wellFormed := h.wellFormed
  exists_run := by
    rw [← hpolicy]
    exact h.exists_run
  length_eq := h.length_eq
  length_le := hlength

/-- An instruction decodes under every limit that it does not exceed. -/
theorem decodeAt_of_length_le {source : List UInt8}
    (h : decodeAt wide source address = .ok instruction)
    (hpolicy : wide.rexPolicy = settings.rexPolicy)
    (hlength : instruction.length ≤ settings.lengthLimit) :
    decodeAt settings source address = .ok instruction := by
  obtain ⟨haddress, bytes, rest, hsource, hencoded⟩ := decodeAt_eq_ok_iff.mp h
  exact decodeAt_eq_ok_iff.mpr
    ⟨haddress, bytes, rest, hsource, hencoded.of_length_le hpolicy hlength⟩

/-- The outcome of a reading that fails for another reason than bounds. -/
theorem decodeAt_of_readInstruction_eq_malformed {source : List UInt8} {reason : Malformation}
    (h : readInstruction settings address (Cursor.ofRegion source address).lookahead =
      .error (.malformed reason)) :
    decodeAt settings source address = .error { address, cause := .malformed reason } := by
  have houtcome := @outcome_eq_toFailure_iff settings (.ofRegion source address) _
    (Fault.isDecisive_malformed reason)
  rw [Cursor.address_ofRegion] at houtcome
  refine (houtcome.mpr h).trans (congrArg Except.error ?_)
  unfold Fault.toFailure
  rw [Cursor.address_ofRegion]

/-- The length limit decides between an instruction and a refusal, and does nothing else. The
stored number counts as the nearest one from 1 to 15. An instruction that decodes under the
architectural limit decodes to the same record where it is not too long. It is refused with
its own length where its prefixes leave room for an opcode, and otherwise with the length at
which the prefixes passed the limit. No limit admits an instruction that the architectural
one does not, and every refusal for a length names the limit in effect and a greater length. -/
theorem decodeAt_lengthLimit (settings : Settings) (source : List UInt8) (address : UInt64) :
    settings.lengthLimit = max 1 (min settings.maxLength 15) ∧
    (∀ instruction, decodeAt { settings with maxLength := 15 } source address = .ok instruction →
      (instruction.length ≤ settings.lengthLimit →
        decodeAt settings source address = .ok instruction) ∧
      (instruction.prefixes.count.toNat < settings.lengthLimit →
        settings.lengthLimit < instruction.length →
        decodeAt settings source address =
          .error ⟨address, .malformed (.tooLong instruction.length settings.lengthLimit)⟩) ∧
      (settings.lengthLimit ≤ instruction.prefixes.count.toNat →
        decodeAt settings source address =
          .error ⟨address, .malformed
            (.tooLong (settings.lengthLimit + 1) settings.lengthLimit)⟩)) ∧
    (∀ instruction, decodeAt settings source address = .ok instruction →
      decodeAt { settings with maxLength := 15 } source address = .ok instruction) ∧
    (∀ cursor failure length limit, (decode settings cursor).outcome = .error failure →
      failure.cause = .malformed (.tooLong length limit) →
      limit = settings.lengthLimit ∧ settings.lengthLimit < length) := by
  refine ⟨rfl, ?_, ?_, ?_⟩
  · intro instruction h
    obtain ⟨after, hread⟩ := outcome_eq_ok_iff.mp h
    rw [Cursor.address_ofRegion] at hread
    refine ⟨decodeAt_of_length_le h rfl, ?_, ?_⟩
    · intro hcount hlong
      exact decodeAt_of_readInstruction_eq_malformed
        (readInstruction_eq_tooLong rfl hread rfl hcount hlong)
    · intro hcount
      exact decodeAt_of_readInstruction_eq_malformed
        (readInstruction_eq_tooLong_of_le_count rfl hread rfl hcount)
  · intro instruction h
    obtain ⟨-, bytes, rest, -, hencoded⟩ := decodeAt_eq_ok_iff.mp h
    refine decodeAt_of_length_le h rfl ?_
    exact Nat.le_trans hencoded.length_le settings.lengthLimit_le
  · intro cursor failure length limit h hcause
    exact lt_of_readInstruction_eq_tooLong rfl (readInstruction_of_cause_eq_malformed h hcause)

/-- An addition of ten bytes with two prefixes, once behind a limit of five bytes and once
behind a stored limit of zero, which counts as one. -/
theorem decodeAt_lengthLimit_locked_addition :
    ∃ instruction,
      decodeAt {} [0xF0, 0x48, 0x81, 0x44, 0x8B, 0xF0, 0x78, 0x56, 0x34, 0x12] 0x1000 =
        .ok instruction ∧
      instruction.prefixes.count.toNat = 2 ∧ instruction.length = 10 ∧
      decodeAt { maxLength := 5 }
        [0xF0, 0x48, 0x81, 0x44, 0x8B, 0xF0, 0x78, 0x56, 0x34, 0x12] 0x1000 =
        .error ⟨0x1000, .malformed (.tooLong 10 5)⟩ ∧
      decodeAt { maxLength := 0 }
        [0xF0, 0x48, 0x81, 0x44, 0x8B, 0xF0, 0x78, 0x56, 0x34, 0x12] 0x1000 =
        .error ⟨0x1000, .malformed (.tooLong 2 1)⟩ := by
  refine ⟨_, rfl, rfl, rfl, ?_, ?_⟩
  · obtain ⟨-, hwide, -⟩ := decodeAt_lengthLimit { maxLength := 5 }
      [0xF0, 0x48, 0x81, 0x44, 0x8B, 0xF0, 0x78, 0x56, 0x34, 0x12] 0x1000
    exact (hwide _ rfl).2.1 (by decide) (by decide)
  · obtain ⟨-, hwide, -⟩ := decodeAt_lengthLimit { maxLength := 0 }
      [0xF0, 0x48, 0x81, 0x44, 0x8B, 0xF0, 0x78, 0x56, 0x34, 0x12] 0x1000
    exact (hwide _ rfl).2.2 (by decide)

end LongMode
