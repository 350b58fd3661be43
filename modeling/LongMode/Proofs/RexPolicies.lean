import LongMode.Proofs.Faults

/-!
# What the REX policy changes

Under both policies the scan reads the same bytes with the same effects, up to a legacy
prefix that follows a REX prefix. There the strict scan stops, and the byte it stopped at
is taken for an opcode that the table knows to be a prefix: this is how a conflict arises,
and `readInstruction_eq_prefixConflict_iff` says that there is no other way. The last
theorem compares the outcomes of the two policies.
-/

namespace LongMode

/-! ## Prefix bytes in the tables -/

/-- No byte is both a legacy prefix and a REX prefix. -/
theorem LegacyPrefix.isRex_of_isLegacy {byte : UInt8} (h : isLegacy byte = true) :
    Rex.isRex byte = false := by
  have hall : ∀ bits : BitVec 8, isLegacy ⟨bits⟩ = true → Rex.isRex ⟨bits⟩ = false := by
    decide +kernel
  exact hall byte.toBitVec h

theorem LegacyPrefix.ofByte?_of_isRex {byte : UInt8} (h : Rex.isRex byte = true) :
    ofByte? byte = none := by
  rw [← Option.not_isSome_iff_eq_none]
  intro hlegacy
  rw [isRex_of_isLegacy hlegacy] at h
  cases h

theorem isPrefixByte_of_isLegacy {byte : UInt8} (h : LegacyPrefix.isLegacy byte = true) :
    isPrefixByte byte = true := by
  rw [isPrefixByte, h, Bool.true_or]

namespace Opcode

/-- Only the one-byte map has entries for prefixes. -/
theorem map_eq_oneByte_of_kind {opcode : Opcode} (h : opcode.entry.kind = .prefixByte) :
    opcode.map = .oneByte := by
  have hbands (map : OpcodeMap) :
      ∀ band ∈ map.bands, band.entry.kind = .prefixByte → map = .oneByte := by
    cases map <;> decide +kernel
  unfold Opcode.entry at h
  cases hfind : opcode.map.bands.find? (·.covers opcode.byte) with
  | none =>
      rw [hfind] at h
      cases h
  | some band =>
      rw [hfind] at h
      exact hbands opcode.map band (List.mem_of_find?_eq_some hfind) h

/-- An opcode is reported as a conflict exactly when it is a prefix byte of the one-byte
map. -/
theorem layout_eq_prefixConflict_iff {opcode : Opcode} {byte : UInt8} :
    opcode.layout = .error (.prefixConflict byte) ↔
      opcode = { map := .oneByte, byte } ∧ isPrefixByte byte = true := by
  have hkind : opcode.layout = .error (.prefixConflict byte) ↔
      opcode.entry.kind = .prefixByte ∧ opcode.byte = byte := by
    unfold Opcode.layout
    cases hkind : opcode.entry.kind <;> simp [hkind]
  rw [hkind]
  refine ⟨?_, ?_⟩
  · intro h
    obtain ⟨hentry, rfl⟩ := h
    obtain ⟨map, byte⟩ := opcode
    obtain rfl : map = .oneByte := map_eq_oneByte_of_kind hentry
    exact ⟨rfl, (kind_oneByte_eq_prefixByte_iff byte).mp hentry⟩
  · intro h
    obtain ⟨rfl, hprefixed⟩ := h
    exact ⟨(kind_oneByte_eq_prefixByte_iff byte).mpr hprefixed, rfl⟩

end Opcode

/-! ## How a conflict arises -/

variable {settings : Settings} {address : UInt64} {input : Lookahead} {byte : UInt8}

/-- The only prefix byte that ends a run is a legacy prefix behind a REX prefix, under the
strict policy. -/
theorem Prefixes.isLegacy_of_step?_eq_none {policy : RexPolicy} {prefixes : Prefixes}
    (hbyte : isPrefixByte byte = true) (hstep : prefixes.step? policy byte = none) :
    LegacyPrefix.isLegacy byte = true ∧ prefixes.rex.isSome = true ∧ policy = .strict := by
  obtain hother | hlegacy := step?_eq_none_iff.mp hstep
  · rw [hbyte] at hother
    cases hother
  · exact hlegacy

/-- A scan that stopped in front of a legacy prefix. -/
def Prefixes.StopsAtLegacy (scanned : Except Fault (Prefixes × Lookahead)) (byte : UInt8) : Prop :=
  ∃ prefixes after, scanned = .ok (prefixes, after) ∧ after.rest.head? = some byte ∧
    LegacyPrefix.isLegacy byte = true

/-- A scan stops in front of a legacy prefix exactly when a strict run that ends with a REX
prefix in effect comes before it. -/
theorem Prefixes.stopsAtLegacy_scan_iff {policy : RexPolicy} {limit : Nat} :
    StopsAtLegacy (scan policy limit input) byte ↔
      policy = .strict ∧ LegacyPrefix.isLegacy byte = true ∧
        ∃ run rest, input.rest = run ++ byte :: rest ∧ input.consumed + run.length < limit ∧
          ∃ prefixes, run? policy {} run = some prefixes ∧ prefixes.rex.isSome = true := by
  refine ⟨?_, ?_⟩
  · intro h
    obtain ⟨prefixes, after, hscan, hhead, hlegacy⟩ := h
    obtain ⟨run, hlimit, hrun, ⟨found, hfound, hstep⟩, hreads⟩ := scan_eq_ok_iff.mp hscan
    obtain rfl : byte = found := Option.some.inj (hhead.symm.trans hfound)
    obtain ⟨rest, hrest⟩ := List.head?_eq_some_iff.mp hhead
    obtain ⟨-, hrex, hpolicy⟩ :=
      isLegacy_of_step?_eq_none (isPrefixByte_of_isLegacy hlegacy) hstep
    refine ⟨hpolicy, hlegacy, run, rest, ?_, hlimit, prefixes, hrun, hrex⟩
    rw [← hrest]
    exact hreads.rest_eq
  · intro h
    obtain ⟨rfl, hlegacy, run, rest, hrest, hlimit, prefixes, hrun, hrex⟩ := h
    let after : Lookahead :=
      { input with consumed := input.consumed + run.length, rest := byte :: rest }
    have hreads : input.Reads run after := ⟨hrest, rfl, rfl, rfl⟩
    have hstop : prefixes.StopsAt .strict after.rest :=
      ⟨byte, rfl, step?_eq_none_iff.mpr (.inr ⟨hlegacy, hrex, rfl⟩)⟩
    exact ⟨prefixes, after, scan_eq_ok_iff.mpr ⟨run, hlimit, hrun, hstop, hreads⟩, rfl, hlegacy⟩

/-- A legacy prefix that stands where the opcode has to stand is a conflict. -/
theorem readBody_of_isLegacy {limit : Nat} {prefixes : Prefixes}
    (hhead : input.rest.head? = some byte) (hlegacy : LegacyPrefix.isLegacy byte = true) :
    readBody limit address prefixes input = .error (.prefixConflict byte) := by
  have hprefixed := isPrefixByte_of_isLegacy hlegacy
  obtain ⟨rest, hrest⟩ := List.head?_eq_some_iff.mp hhead
  let opcode : Opcode := { map := .oneByte, byte }
  let after : Lookahead := { input with consumed := input.consumed + 1, rest }
  have hopcode : Opcode.read input = .ok (opcode, after) := by
    refine Opcode.read_eq_ok_iff.mpr ⟨⟨?_, nofun⟩, hrest, rfl, rfl, rfl⟩
    intro _ hescape
    obtain rfl : byte = 0x0F := hescape
    exact absurd hlegacy (by decide)
  have hlayout : Reader.ofExcept opcode.layout after = .error (.prefixConflict byte) := by
    rw [Opcode.layout_eq_prefixConflict_iff.mpr ⟨rfl, hprefixed⟩]
    rfl
  exact Reader.bind_eq_error_iff.mpr
    (.inr ⟨opcode, after, hopcode, Reader.bind_eq_error_iff.mpr (.inl hlayout)⟩)

/-- Decoding ends in a conflict exactly when the scan stopped in front of a legacy prefix. -/
theorem readInstruction_eq_prefixConflict_iff :
    readInstruction settings address input = .error (.prefixConflict byte) ↔
      Prefixes.StopsAtLegacy
        (Prefixes.scan settings.rexPolicy settings.lengthLimit input) byte := by
  rw [readInstruction_eq_bind]
  refine ⟨?_, ?_⟩
  · intro h
    obtain h | ⟨prefixes, after, hscan, h⟩ := Reader.bind_eq_error_iff.mp h
    · obtain ⟨bounds, hbounds⟩ | hlong := Prefixes.scanFrom_eq_error h
      · cases hbounds
      · cases hlong
    · refine ⟨prefixes, after, hscan, ?_⟩
      obtain ⟨bounds, hbounds⟩ | ⟨opcode, behind, hopcode, hlayout | ⟨-, -, hpop⟩⟩ |
        ⟨length, -, hlong⟩ := readBody_eq_error h
      · cases hbounds
      · obtain ⟨rfl, hprefixed⟩ := Opcode.layout_eq_prefixConflict_iff.mp hlayout
        have hhead : after.rest.head? = some byte := (Opcode.read_sound hopcode).2.head?_eq
        obtain ⟨run, -, -, ⟨found, hfound, hstep⟩, -⟩ := Prefixes.scan_eq_ok_iff.mp hscan
        obtain rfl : byte = found := Option.some.inj (hhead.symm.trans hfound)
        exact ⟨hhead, (Prefixes.isLegacy_of_step?_eq_none hprefixed hstep).1⟩
      · cases hpop
      · cases hlong
  · intro h
    obtain ⟨prefixes, after, hscan, hhead, hlegacy⟩ := h
    exact Reader.bind_eq_error_iff.mpr
      (.inr ⟨prefixes, after, hscan, readBody_of_isLegacy hhead hlegacy⟩)

/-! ## Runs of prefixes under the strict policy -/

namespace Prefixes

variable {policy : RexPolicy} {prefixes result : Prefixes}

/-- A strict run consists of legacy prefixes and then REX prefixes, with no legacy prefixes
if a REX prefix came before, and the last REX prefix is in effect at its end. -/
theorem run?_strict_sound {run : List UInt8} (h : prefixes.run? .strict run = some result) :
    ∃ legacies rexes, run = legacies ++ rexes ∧
      (∀ byte ∈ legacies, LegacyPrefix.isLegacy byte = true) ∧
      (∀ byte ∈ rexes, Rex.isRex byte = true) ∧
      (prefixes.rex.isSome = true → legacies = []) ∧
      (result.rex.isSome = true → prefixes.rex.isSome = true ∨ rexes ≠ []) := by
  induction run generalizing prefixes with
  | nil =>
      obtain rfl : prefixes = result := Option.some.inj h
      exact ⟨[], [], rfl, nofun, nofun, fun _ => rfl, .inl⟩
  | cons byte run ih =>
      obtain ⟨next, hstep, hrun⟩ := Option.bind_eq_some_iff.mp h
      obtain ⟨legacies, rexes, rfl, hlegacies, hrexes, honly, hresult⟩ := ih hrun
      obtain ⟨legacy, hlegacy, hnone, rfl⟩ | ⟨-, hrex, rfl⟩ := step?_cases hstep
      · have hnone : prefixes.rex = none := hnone rfl
        have hbyte : LegacyPrefix.isLegacy byte = true := by
          rw [LegacyPrefix.isLegacy, hlegacy]
          rfl
        refine ⟨byte :: legacies, rexes, rfl, List.forall_mem_cons.mpr ⟨hbyte, hlegacies⟩, hrexes,
          ?_, ?_⟩
        · rw [hnone]
          exact nofun
        · intro hsome
          exact .inr ((hresult hsome).resolve_left nofun)
      · obtain rfl : legacies = [] := honly rfl
        exact ⟨[], byte :: rexes, rfl, nofun, List.forall_mem_cons.mpr ⟨hrex, hrexes⟩,
          fun _ => rfl, fun _ => .inr (List.cons_ne_nil _ _)⟩

/-- Legacy prefixes without a REX prefix in front are a run under every policy. -/
theorem run?_of_isLegacy {legacies : List UInt8} (hrex : prefixes.rex = none)
    (h : ∀ byte ∈ legacies, LegacyPrefix.isLegacy byte = true) :
    ∃ result, prefixes.run? policy legacies = some result ∧ result.rex = none := by
  induction legacies generalizing prefixes with
  | nil => exact ⟨prefixes, rfl, hrex⟩
  | cons byte legacies ih =>
      obtain ⟨hbyte, hlegacies⟩ := List.forall_mem_cons.mp h
      obtain ⟨legacy, hlegacy⟩ := Option.isSome_iff_exists.mp hbyte
      have hstep : prefixes.step? policy byte = some (prefixes.afterLegacy legacy) := by
        simp [step?, hlegacy, hrex]
      have hcleared : (prefixes.afterLegacy legacy).rex = none := rfl
      obtain ⟨result, hrun, hresult⟩ := ih hcleared hlegacies
      exact ⟨result, Option.bind_eq_some_iff.mpr ⟨_, hstep, hrun⟩, hresult⟩

/-- REX prefixes continue every run, and the last of them is in effect at its end. -/
theorem run?_of_isRex {rexes : List UInt8} (h : ∀ byte ∈ rexes, Rex.isRex byte = true) :
    ∃ result, prefixes.run? policy rexes = some result ∧
      (prefixes.rex.isSome = true ∨ rexes ≠ [] → result.rex.isSome = true) := by
  induction rexes generalizing prefixes with
  | nil => exact ⟨prefixes, rfl, fun hsome => hsome.resolve_right (absurd rfl)⟩
  | cons byte rexes ih =>
      obtain ⟨hbyte, hrexes⟩ := List.forall_mem_cons.mp h
      have hstep : prefixes.step? policy byte = some (prefixes.afterRex (Rex.ofByte byte)) := by
        simp [step?, LegacyPrefix.ofByte?_of_isRex hbyte, hbyte]
      obtain ⟨result, hrun, hresult⟩ := @ih (prefixes.afterRex (Rex.ofByte byte)) hrexes
      exact ⟨result, Option.bind_eq_some_iff.mpr ⟨_, hstep, hrun⟩, fun _ => hresult (.inl rfl)⟩

/-- The strict runs that end with a REX prefix in effect are legacy prefixes followed by at
least one REX prefix. -/
theorem run?_strict_iff {run : List UInt8} :
    (∃ prefixes, run? .strict {} run = some prefixes ∧ prefixes.rex.isSome = true) ↔
      ∃ legacies rexes, run = legacies ++ rexes ∧
        (∀ byte ∈ legacies, LegacyPrefix.isLegacy byte = true) ∧
        rexes ≠ [] ∧ (∀ byte ∈ rexes, Rex.isRex byte = true) := by
  refine ⟨?_, ?_⟩
  · intro h
    obtain ⟨prefixes, hrun, hrex⟩ := h
    obtain ⟨legacies, rexes, heq, hlegacies, hrexes, -, hresult⟩ := run?_strict_sound hrun
    exact ⟨legacies, rexes, heq, hlegacies, (hresult hrex).resolve_left nofun, hrexes⟩
  · intro h
    obtain ⟨legacies, rexes, rfl, hlegacies, hne, hrexes⟩ := h
    have hstart : Prefixes.rex {} = none := rfl
    obtain ⟨between, hfirst, -⟩ := run?_of_isLegacy hstart hlegacies
    obtain ⟨prefixes, hsecond, hrex⟩ := run?_of_isRex hrexes
    refine ⟨prefixes, ?_, hrex (.inr hne)⟩
    unfold run? at hfirst hsecond ⊢
    rw [List.foldlM_append, hfirst]
    exact hsecond

/-- Where a scan stops in front of a prefix byte, that byte is a legacy prefix. -/
theorem stopsAtLegacy_of_step? {limit room : Nat} {input : Lookahead} {byte : UInt8}
    {rest : List UInt8} (hrest : input.rest = byte :: rest)
    (hbyte : isPrefixByte byte = true) (hstep : prefixes.step? policy byte = none) :
    StopsAtLegacy (scanFrom policy limit (room + 1) prefixes input) byte := by
  rw [scanFrom_of_rest_eq_cons policy limit room prefixes hrest, hstep]
  refine ⟨prefixes, input, rfl, ?_, (isLegacy_of_step?_eq_none hbyte hstep).1⟩
  rw [hrest]
  rfl

/-! ## The two policies side by side -/

/-- A byte that continues a run under the strict policy does so in the same way under the
lenient one. -/
theorem step?_lenient {byte : UInt8} (h : prefixes.step? .strict byte = some result) :
    prefixes.step? .lenient byte = some result := by
  obtain ⟨legacy, hlegacy, -, rfl⟩ | ⟨hlegacy, hrex, rfl⟩ := step?_cases h
  · simp [step?, hlegacy]
  · simp [step?, hlegacy, hrex]

/-- The scans of the two policies are equal, unless the strict one stops in front of a
legacy prefix. -/
theorem scanFrom_lenient_or (limit room : Nat) (prefixes : Prefixes) (input : Lookahead) :
    scanFrom .lenient limit room prefixes input = scanFrom .strict limit room prefixes input ∨
      ∃ byte, StopsAtLegacy (scanFrom .strict limit room prefixes input) byte := by
  induction room generalizing prefixes input with
  | zero => exact .inl rfl
  | succ room ih =>
      cases hrest : input.rest with
      | nil =>
          refine .inl ?_
          rw [scanFrom_of_rest_eq_nil _ _ _ _ hrest, scanFrom_of_rest_eq_nil _ _ _ _ hrest]
      | cons byte rest =>
          cases hstep : prefixes.step? .strict byte with
          | some next =>
              rw [scanFrom_of_rest_eq_cons _ _ _ _ hrest, scanFrom_of_rest_eq_cons _ _ _ _ hrest,
                hstep, step?_lenient hstep]
              exact ih next _
          | none =>
              obtain hother | ⟨hlegacy, -⟩ := step?_eq_none_iff.mp hstep
              · have hlenient : prefixes.step? .lenient byte = none :=
                  step?_eq_none_iff.mpr (.inl hother)
                refine .inl ?_
                rw [scanFrom_of_rest_eq_cons _ _ _ _ hrest,
                  scanFrom_of_rest_eq_cons _ _ _ _ hrest, hstep, hlenient]
              · have hprefixed := isPrefixByte_of_isLegacy hlegacy
                exact .inr ⟨byte, stopsAtLegacy_of_step? hrest hprefixed hstep⟩

theorem scan_lenient_or (limit : Nat) (input : Lookahead) :
    scan .lenient limit input = scan .strict limit input ∨
      ∃ byte, StopsAtLegacy (scan .strict limit input) byte :=
  scanFrom_lenient_or limit (limit - input.consumed) {} input

end Prefixes

/-- `IsConflict outcome byte` says that a decode call ended in a prefix conflict at `byte`. -/
def IsConflict (outcome : Outcome) (byte : UInt8) : Prop :=
  ∃ failure, outcome = .error failure ∧ failure.cause = .prefixConflict byte

/-- A decode call ends in a conflict exactly when its reader does. -/
theorem isConflict_decodeAt_iff {source : List UInt8} :
    IsConflict (decodeAt settings source address) byte ↔
      readInstruction settings address (Cursor.ofRegion source address).lookahead =
        .error (.prefixConflict byte) := by
  have houtcome :=
    @outcome_eq_toFailure_iff settings (.ofRegion source address) (.prefixConflict byte) nofun
  rw [Cursor.address_ofRegion] at houtcome
  rw [← houtcome]
  refine ⟨?_, ?_⟩
  · intro h
    obtain ⟨failure, hfailure, hcause⟩ := h
    have haddress := (cursor_of_outcome_eq_error hfailure).2
    refine hfailure.trans (congrArg Except.error ?_)
    obtain ⟨place, cause⟩ := failure
    obtain rfl : cause = .prefixConflict byte := hcause
    obtain rfl : place = _ := haddress
    rfl
  · intro h
    exact ⟨_, h, rfl⟩

/-- Under the strict policy a conflict means legacy prefixes, then REX prefixes, then a legacy
prefix within the length limit. -/
theorem isConflict_strict_iff {source : List UInt8} (hstrict : settings.rexPolicy = .strict) :
    IsConflict (decodeAt settings source address) byte ↔
      ∃ legacies rexes rest, source = legacies ++ rexes ++ byte :: rest ∧
        (∀ other ∈ legacies, LegacyPrefix.isLegacy other = true) ∧
        rexes ≠ [] ∧ (∀ other ∈ rexes, Rex.isRex other = true) ∧
        LegacyPrefix.isLegacy byte = true ∧
        legacies.length + rexes.length < settings.lengthLimit := by
  rw [isConflict_decodeAt_iff, readInstruction_eq_prefixConflict_iff, hstrict,
    Prefixes.stopsAtLegacy_scan_iff]
  refine ⟨?_, ?_⟩
  · intro h
    obtain ⟨-, hlegacy, run, rest, hsource, hlimit, hrun⟩ := h
    obtain ⟨legacies, rexes, rfl, hlegacies, hne, hrexes⟩ := Prefixes.run?_strict_iff.mp hrun
    refine ⟨legacies, rexes, rest, hsource, hlegacies, hne, hrexes, hlegacy, ?_⟩
    have hlimit : 0 + (legacies ++ rexes).length < settings.lengthLimit := hlimit
    rwa [Nat.zero_add, List.length_append] at hlimit
  · intro h
    obtain ⟨legacies, rexes, rest, hsource, hlegacies, hne, hrexes, hlegacy, hlimit⟩ := h
    refine ⟨rfl, hlegacy, legacies ++ rexes, rest, hsource, ?_,
      Prefixes.run?_strict_iff.mpr ⟨legacies, rexes, rfl, hlegacies, hne, hrexes⟩⟩
    show 0 + (legacies ++ rexes).length < settings.lengthLimit
    rwa [Nat.zero_add, List.length_append]

/-- Where the strict scan does not stop in front of a legacy prefix, both policies read the
same. -/
theorem readInstruction_lenient (settings : Settings) (address : UInt64) (input : Lookahead)
    (h : ∀ byte, readInstruction (settings.withRexPolicy .strict) address input ≠
      .error (.prefixConflict byte)) :
    readInstruction (settings.withRexPolicy .lenient) address input =
      readInstruction (settings.withRexPolicy .strict) address input := by
  have hconflict (byte : UInt8) :=
    @readInstruction_eq_prefixConflict_iff (settings.withRexPolicy .strict) address input byte
  obtain hsame | ⟨byte, hstops⟩ := Prefixes.scan_lenient_or settings.lengthLimit input
  · show (Prefixes.scan .lenient settings.lengthLimit >>= readBody _ address) input =
      (Prefixes.scan .strict settings.lengthLimit >>= readBody _ address) input
    rw [Reader.bind_apply, Reader.bind_apply, hsame]
    rfl
  · exact absurd ((hconflict byte).mpr hstops) (h byte)

/-- The strict and the lenient policy differ only on prefix conflicts. The lenient decoder
never reports one, and wherever the strict decoder reports none, the outcomes are equal.
The strict decoder reports a conflict exactly where legacy prefixes and then at least one
REX prefix are followed by a legacy prefix within the length limit, and that is the byte
it names, which therefore is never a REX prefix. -/
theorem decodeAt_rexPolicies (settings : Settings) (source : List UInt8) (address : UInt64) :
    (∀ byte, ¬ IsConflict (decodeAt (settings.withRexPolicy .lenient) source address) byte) ∧
    ((∀ byte, ¬ IsConflict (decodeAt (settings.withRexPolicy .strict) source address) byte) →
      decodeAt (settings.withRexPolicy .lenient) source address =
        decodeAt (settings.withRexPolicy .strict) source address) ∧
    (∀ byte, IsConflict (decodeAt (settings.withRexPolicy .strict) source address) byte ↔
      ∃ legacies rexes rest, source = legacies ++ rexes ++ byte :: rest ∧
        (∀ other ∈ legacies, LegacyPrefix.isLegacy other = true) ∧
        rexes ≠ [] ∧ (∀ other ∈ rexes, Rex.isRex other = true) ∧
        LegacyPrefix.isLegacy byte = true ∧
        legacies.length + rexes.length < max 1 (min settings.maxLength 15)) ∧
    (∀ byte, IsConflict (decodeAt (settings.withRexPolicy .strict) source address) byte →
      Rex.isRex byte = false) := by
  have hstrict (byte : UInt8) :=
    @isConflict_strict_iff (settings.withRexPolicy .strict) address byte source rfl
  refine ⟨?_, ?_, hstrict, ?_⟩
  · intro byte h
    rw [isConflict_decodeAt_iff, readInstruction_eq_prefixConflict_iff,
      Prefixes.stopsAtLegacy_scan_iff] at h
    cases h.1
  · intro hnone
    have hsame := readInstruction_lenient settings address
      (Cursor.ofRegion source address).lookahead
      fun byte hconflict => hnone byte (isConflict_decodeAt_iff.mpr hconflict)
    unfold decodeAt
    rw [outcome_decode, outcome_decode, Cursor.address_ofRegion, hsame]
    rfl
  · intro byte h
    obtain ⟨legacies, rexes, rest, -, -, -, -, hlegacy, -⟩ := (hstrict byte).mp h
    exact LegacyPrefix.isRex_of_isLegacy hlegacy

end LongMode
