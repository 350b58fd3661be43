import LongMode.Prefixes.Scan
import LongMode.Proofs.Reads

/-!
# Runs of prefix bytes

`step?` is the effect of one prefix byte and `run?` that of a run of them. The scan
is described by `scan_eq_ok_iff`: it reads a run and stops in front of a byte that
cannot continue it. A run consists of prefix bytes and is counted byte by byte, and
the minimal run that `Prefixes.encoding` writes has the effect it was written for.
-/

namespace LongMode

/-- Whether a byte is a legacy prefix or a REX prefix. -/
def isPrefixByte (byte : UInt8) : Bool :=
  LegacyPrefix.isLegacy byte || Rex.isRex byte

namespace Rex

/-- The byte of a REX prefix stands for it, and for no legacy prefix. -/
theorem ofByte_toByte (rex : Rex) :
    LegacyPrefix.ofByte? rex.toByte = none ∧ isRex rex.toByte = true ∧ ofByte rex.toByte = rex := by
  obtain ⟨w, r, x, b⟩ := rex
  revert w r x b
  decide

end Rex

namespace Prefixes

/-- The prefixes after one more byte, or `none` where a scan stops. -/
def step? (policy : RexPolicy) (prefixes : Prefixes) (byte : UInt8) : Option Prefixes :=
  match LegacyPrefix.ofByte? byte with
  | some legacy =>
      if prefixes.rex.isSome ∧ policy = .strict then none else some (prefixes.afterLegacy legacy)
  | none => if Rex.isRex byte then some (prefixes.afterRex (Rex.ofByte byte)) else none

/-- The prefixes after a run of bytes, or `none` if a scan stops within it. -/
def run? (policy : RexPolicy) (prefixes : Prefixes) (bytes : List UInt8) : Option Prefixes :=
  bytes.foldlM (step? policy) prefixes

variable {policy : RexPolicy} {prefixes result : Prefixes}

/-- A byte continues a run as a legacy prefix that a REX prefix may not precede under the
strict policy, or as a REX prefix. -/
theorem step?_cases {byte : UInt8} (h : prefixes.step? policy byte = some result) :
    (∃ legacy, LegacyPrefix.ofByte? byte = some legacy ∧
      (policy = .strict → prefixes.rex = none) ∧ result = prefixes.afterLegacy legacy) ∨
    (LegacyPrefix.ofByte? byte = none ∧ Rex.isRex byte = true ∧
      result = prefixes.afterRex (Rex.ofByte byte)) := by
  unfold step? at h
  cases hlegacy : LegacyPrefix.ofByte? byte with
  | some legacy =>
      rw [hlegacy] at h
      by_cases hstop : prefixes.rex.isSome ∧ policy = .strict
      · simp only [if_pos hstop] at h
        cases h
      · simp only [if_neg hstop] at h
        cases h
        refine .inl ⟨legacy, rfl, ?_, rfl⟩
        intro hstrict
        simpa [hstrict] using hstop
  | none =>
      rw [hlegacy] at h
      by_cases hrex : Rex.isRex byte = true
      · simp only [if_pos hrex] at h
        cases h
        exact .inr ⟨rfl, hrex, rfl⟩
      · simp only [if_neg hrex] at h
        cases h

/-- A scan stops in front of any byte that is no prefix, and under the strict policy in
front of a legacy prefix behind a REX prefix. -/
theorem step?_eq_none_iff {byte : UInt8} :
    prefixes.step? policy byte = none ↔
      isPrefixByte byte = false ∨
        (LegacyPrefix.isLegacy byte = true ∧ prefixes.rex.isSome = true ∧ policy = .strict) := by
  unfold step? isPrefixByte LegacyPrefix.isLegacy
  cases LegacyPrefix.ofByte? byte with
  | some legacy => simp
  | none => simp

/-! ## The scan reads a run -/

/-- One round of the scan looks at a byte and goes on where it continues the run. -/
theorem scanFrom_succ (policy : RexPolicy) (limit room : Nat) (prefixes : Prefixes) :
    scanFrom policy limit (room + 1) prefixes = Reader.peek >>= fun byte =>
      match prefixes.step? policy byte with
      | some next => Reader.skipByte >>= fun _ => scanFrom policy limit room next
      | none => pure prefixes := by
  rw [scanFrom]
  congr 1
  funext byte
  unfold step?
  cases LegacyPrefix.ofByte? byte with
  | some legacy =>
      by_cases hstop : prefixes.rex.isSome ∧ policy = .strict
      · simp only [if_pos hstop]
      · simp only [if_neg hstop]
  | none =>
      by_cases hrex : Rex.isRex byte = true
      · simp only [if_pos hrex]
      · simp only [if_neg hrex]

/-- On a byte that is there, one round of the scan passes over it or stops in front of it. -/
theorem scanFrom_of_rest_eq_cons (policy : RexPolicy) (limit room : Nat) (prefixes : Prefixes)
    {input : Lookahead} {byte : UInt8} {rest : List UInt8} (h : input.rest = byte :: rest) :
    scanFrom policy limit (room + 1) prefixes input =
      match prefixes.step? policy byte with
      | some next =>
          scanFrom policy limit room next { input with consumed := input.consumed + 1, rest }
      | none => .ok (prefixes, input) := by
  have hpeek : Reader.peek input = .ok (byte, input) :=
    Reader.peek_eq_ok_iff.mpr ⟨by rw [h]; rfl, rfl⟩
  have hskip : Reader.skipByte input =
      .ok ((), { input with consumed := input.consumed + 1, rest }) :=
    Reader.skipByte_eq_ok_iff.mpr ⟨byte, h, rfl, rfl, rfl⟩
  rw [scanFrom_succ, Reader.bind_apply, hpeek]
  dsimp only
  cases prefixes.step? policy byte with
  | none => rfl
  | some next =>
      show (Reader.skipByte >>= fun _ => scanFrom policy limit room next) input = _
      rw [Reader.bind_apply, hskip]

/-- Where no byte is left, a scan runs out of bounds. -/
theorem scanFrom_of_rest_eq_nil (policy : RexPolicy) (limit room : Nat) (prefixes : Prefixes)
    {input : Lookahead} (h : input.rest = []) :
    scanFrom policy limit (room + 1) prefixes input =
      .error (.outOfBounds (input.outOfBounds 1)) := by
  have hpeek : Reader.peek input = .error (.outOfBounds (input.outOfBounds 1)) := by
    simp only [Reader.peek, Reader.ofRead, Lookahead.peek, h, Except.map]
  rw [scanFrom_succ, Reader.bind_apply, hpeek]

/-- Without room for another byte a scan fails, whatever is left to read. -/
theorem scanFrom_zero (policy : RexPolicy) (limit : Nat) (prefixes : Prefixes)
    (input : Lookahead) :
    scanFrom policy limit 0 prefixes input =
      .error (.malformed (.tooLong (input.consumed + 1) limit)) :=
  rfl

/-- A scan stops in front of a byte that cannot continue the run. -/
def StopsAt (policy : RexPolicy) (prefixes : Prefixes) (rest : List UInt8) : Prop :=
  ∃ byte, rest.head? = some byte ∧ prefixes.step? policy byte = none

/-- A scan that succeeds has read a run and stopped within its room. -/
theorem scanFrom_sound {limit room : Nat} {input after : Lookahead}
    (h : scanFrom policy limit room prefixes input = .ok (result, after)) :
    ∃ run, run.length < room ∧ prefixes.run? policy run = some result ∧
      result.StopsAt policy after.rest ∧ input.Reads run after := by
  induction room generalizing prefixes input with
  | zero =>
      obtain ⟨_, _, _, h⟩ := Reader.bind_eq_ok_iff.mp h
      exact absurd h Reader.fail_ne_ok
  | succ room ih =>
      rw [scanFrom_succ] at h
      obtain ⟨byte, between, hpeek, h⟩ := Reader.bind_eq_ok_iff.mp h
      obtain ⟨hhead, rfl⟩ := Reader.peek_eq_ok_iff.mp hpeek
      cases hstep : prefixes.step? policy byte with
      | none =>
          rw [hstep] at h
          obtain ⟨rfl, rfl⟩ := Reader.pure_eq_ok_iff.mp h
          exact ⟨[], Nat.succ_pos _, rfl, ⟨byte, hhead, hstep⟩, Lookahead.reads_nil_iff.mpr rfl⟩
      | some next =>
          rw [hstep] at h
          obtain ⟨_, skipped, hskip, h⟩ := Reader.bind_eq_ok_iff.mp h
          -- The byte passed over is the one that was looked at.
          obtain ⟨first, hfirst⟩ := Reader.skipByte_eq_ok_iff.mp hskip
          obtain rfl : first = byte := Option.some.inj (hfirst.head?_eq.symm.trans hhead)
          obtain ⟨run, hlength, hrun, hstop, hreads⟩ := ih h
          refine ⟨first :: run, Nat.succ_lt_succ hlength, ?_, hstop, hfirst.append hreads⟩
          show Option.bind (prefixes.step? policy first) (fun next => next.run? policy run) = _
          rw [hstep]
          exact hrun

/-- A scan reads every run that fits in its room and ends where it has to stop. -/
theorem scanFrom_complete {limit room : Nat} {input after : Lookahead} {run : List UInt8}
    (hlength : run.length < room) (hrun : prefixes.run? policy run = some result)
    (hstop : result.StopsAt policy after.rest) (hreads : input.Reads run after) :
    scanFrom policy limit room prefixes input = .ok (result, after) := by
  induction run generalizing room prefixes input with
  | nil =>
      obtain rfl := Lookahead.reads_nil_iff.mp hreads
      obtain rfl : prefixes = result := Option.some.inj hrun
      obtain ⟨byte, hhead, hstep⟩ := hstop
      cases room with
      | zero => exact absurd hlength (Nat.not_lt_zero _)
      | succ room =>
          rw [scanFrom_succ, Reader.bind_eq_ok_iff]
          refine ⟨byte, input, Reader.peek_eq_ok_iff.mpr ⟨hhead, rfl⟩, ?_⟩
          rw [hstep]
          exact Reader.pure_eq_ok_iff.mpr ⟨rfl, rfl⟩
  | cons byte run ih =>
      obtain ⟨next, hstep, hrun⟩ := Option.bind_eq_some_iff.mp hrun
      obtain ⟨between, hfirst, hreads⟩ := Lookahead.reads_cons_iff.mp hreads
      cases room with
      | zero => exact absurd hlength (Nat.not_lt_zero _)
      | succ room =>
          rw [scanFrom_succ, Reader.bind_eq_ok_iff]
          refine ⟨byte, input, Reader.peek_eq_ok_iff.mpr ⟨hfirst.head?_eq, rfl⟩, ?_⟩
          rw [hstep]
          refine Reader.bind_eq_ok_iff.mpr
            ⟨(), between, Reader.skipByte_eq_ok_iff.mpr ⟨byte, hfirst⟩, ?_⟩
          exact ih (Nat.lt_of_succ_lt_succ hlength) hrun hreads

/-- The scan succeeds exactly when it reads a run that leaves room for an opcode and
then meets a byte that cannot continue it. -/
theorem scan_eq_ok_iff {limit : Nat} {input after : Lookahead} :
    scan policy limit input = .ok (result, after) ↔
      ∃ run, input.consumed + run.length < limit ∧ run? policy {} run = some result ∧
        result.StopsAt policy after.rest ∧ input.Reads run after := by
  refine ⟨?_, ?_⟩
  · intro h
    obtain ⟨_, _, hconsumed, h⟩ := Reader.bind_eq_ok_iff.mp h
    obtain ⟨rfl, rfl⟩ := Reader.consumed_eq_ok_iff.mp hconsumed
    obtain ⟨run, hlength, hscan⟩ := scanFrom_sound h
    exact ⟨run, by omega, hscan⟩
  · intro h
    obtain ⟨run, hlength, hrun, hstop, hreads⟩ := h
    refine Reader.bind_eq_ok_iff.mpr ⟨_, _, Reader.consumed_eq_ok_iff.mpr ⟨rfl, rfl⟩, ?_⟩
    exact scanFrom_complete (by omega) hrun hstop hreads

/-! ## What a run consists of -/

/-- Only a prefix byte continues a run. -/
theorem isPrefixByte_of_step? {byte : UInt8} (h : prefixes.step? policy byte = some result) :
    isPrefixByte byte = true := by
  unfold step? at h
  unfold isPrefixByte LegacyPrefix.isLegacy
  cases hlegacy : LegacyPrefix.ofByte? byte with
  | some legacy => rfl
  | none =>
      rw [hlegacy] at h
      by_cases hrex : Rex.isRex byte = true
      · simp [hrex]
      · simp [hrex] at h

/-- A run consists of prefix bytes. -/
theorem isPrefixByte_of_run? {bytes : List UInt8} (h : prefixes.run? policy bytes = some result) :
    ∀ byte ∈ bytes, isPrefixByte byte = true := by
  induction bytes generalizing prefixes with
  | nil => simp
  | cons first rest ih =>
      obtain ⟨next, hstep, hrest⟩ := Option.bind_eq_some_iff.mp h
      intro byte hbyte
      rcases List.mem_cons.mp hbyte with rfl | hbyte
      · exact isPrefixByte_of_step? hstep
      · exact ih hrest byte hbyte

/-- A byte of a run is counted. -/
theorem count_of_step? {byte : UInt8} (h : prefixes.step? policy byte = some result) :
    result.count = prefixes.count + 1 := by
  unfold step? at h
  cases hlegacy : LegacyPrefix.ofByte? byte with
  | some legacy =>
      simp only [hlegacy] at h
      split at h
      · cases h
      · cases h
        cases legacy <;> rfl
  | none =>
      simp only [hlegacy] at h
      split at h
      · cases h
        rfl
      · cases h

/-- The bytes of a run are counted, as far as a byte can hold the count. -/
theorem count_of_run? {bytes : List UInt8} (h : prefixes.run? policy bytes = some result) :
    result.count = prefixes.count + UInt8.ofNat bytes.length := by
  induction bytes generalizing prefixes with
  | nil =>
      obtain rfl : prefixes = result := by simpa [run?] using h
      simp
  | cons first rest ih =>
      obtain ⟨next, hstep, hrest⟩ := Option.bind_eq_some_iff.mp h
      rw [ih hrest, count_of_step? hstep, List.length_cons, UInt8.ofNat_add]
      ac_rfl

/-- An instruction has as many prefix bytes as its count says, if they are fewer than
a byte can count. -/
theorem toNat_count_of_run? {bytes : List UInt8} (hsmall : bytes.length < 256)
    (h : run? policy {} bytes = some result) : result.count.toNat = bytes.length := by
  rw [count_of_run? h]
  simpa using Nat.mod_eq_of_lt hsmall

/-! ## The minimal run -/

/-- How many categories of prefixes are set. -/
def categories (prefixes : Prefixes) : Nat :=
  prefixes.segment.isSome.toNat + prefixes.operandSize.toNat + prefixes.addressSize.toNat
    + prefixes.repetition.isSome.toNat + prefixes.lock.toNat + prefixes.rex.isSome.toNat

/-- The legacy prefixes of a minimal run. -/
def legacies (prefixes : Prefixes) : List LegacyPrefix :=
  prefixes.segment.toList.map .segment
    ++ (if prefixes.operandSize then [.operandSize] else [])
    ++ (if prefixes.addressSize then [.addressSize] else [])
    ++ prefixes.repetition.toList.map .repetition
    ++ (if prefixes.lock then [.lock] else [])

/-- A minimal run is the legacy prefixes and then the REX prefix. -/
theorem encoding_eq (prefixes : Prefixes) :
    prefixes.encoding =
      prefixes.legacies.map LegacyPrefix.toByte ++ prefixes.rex.toList.map Rex.toByte := by
  obtain ⟨segment, operandSize, addressSize, repetition, lock, rex, count⟩ := prefixes
  cases segment <;> cases operandSize <;> cases addressSize <;> cases repetition <;>
    cases lock <;> rfl

/-- A minimal run has one byte for each category that is set. -/
theorem length_encoding (prefixes : Prefixes) :
    prefixes.encoding.length = prefixes.categories := by
  obtain ⟨segment, operandSize, addressSize, repetition, lock, rex, count⟩ := prefixes
  cases segment <;> cases operandSize <;> cases addressSize <;> cases repetition <;>
    cases lock <;> cases rex <;> rfl

/-- Without a REX prefix in front, legacy prefixes take effect one after the other. -/
theorem run?_legacies (policy : RexPolicy) {prefixes : Prefixes} (hrex : prefixes.rex = none)
    (legacies : List LegacyPrefix) :
    prefixes.run? policy (legacies.map LegacyPrefix.toByte) =
      some (legacies.foldl afterLegacy prefixes) := by
  induction legacies generalizing prefixes with
  | nil => rfl
  | cons legacy rest ih =>
      have hstep : prefixes.step? policy legacy.toByte = some (prefixes.afterLegacy legacy) := by
        simp [step?, LegacyPrefix.ofByte?_toByte, hrex]
      simp only [List.map_cons, List.foldl_cons, run?, List.foldlM_cons, hstep]
      exact ih rfl

/-- The legacy prefixes of a minimal run have the effects they were written for. -/
theorem foldl_legacies (prefixes : Prefixes) :
    prefixes.legacies.foldl afterLegacy {} =
      { prefixes with rex := none, count := UInt8.ofNat prefixes.legacies.length } := by
  obtain ⟨segment, operandSize, addressSize, repetition, lock, rex, count⟩ := prefixes
  cases segment <;> cases operandSize <;> cases addressSize <;> cases repetition <;>
    cases lock <;> rfl

/-- A minimal run has the effects it was written for, under every policy. -/
theorem run?_encoding (policy : RexPolicy) (prefixes : Prefixes) :
    run? policy {} prefixes.encoding =
      some { prefixes with count := UInt8.ofNat prefixes.encoding.length } := by
  have hlegacies : run? policy {} (prefixes.legacies.map LegacyPrefix.toByte) = _ :=
    run?_legacies policy rfl prefixes.legacies
  rw [foldl_legacies] at hlegacies
  rw [encoding_eq]
  unfold run? at hlegacies ⊢
  rw [List.foldlM_append, hlegacies]
  obtain ⟨segment, operandSize, addressSize, repetition, lock, rex, count⟩ := prefixes
  cases rex with
  | none => simp
  | some rex =>
      -- REX is written last, where neither policy ends the run in front of it.
      obtain ⟨hlegacy, hrex, hbits⟩ := rex.ofByte_toByte
      simp [step?, hlegacy, hrex, hbits, afterRex, UInt8.ofNat_add]

end Prefixes

end LongMode
