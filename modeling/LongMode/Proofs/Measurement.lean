import LongMode.Proofs.Agreement
import LongMode.Proofs.RexPolicies
import Mathlib.Data.List.Forall2
import Mathlib.Data.List.TakeWhile

/-!
# Prefixes that lengths do not depend on

Segment overrides, LOCK and the bits R, X and B of a REX prefix may change what an
instruction does, but not how long it is. `Interchangeable` says which prefix bytes may
stand for each other. One such exchange keeps the measure of the prefixes
(`Prefixes.SameMeasure.step?`), so a whole run of them does (`Prefixes.scanFrom_variants`),
and the last theorem says what this means for the outcome of a decode call.
-/

namespace LongMode

/-- The bytes of the segment overrides and of LOCK. -/
def idlePrefixes : List UInt8 :=
  [0x26, 0x2E, 0x36, 0x3E, 0x64, 0x65, 0xF0]

/-- `Interchangeable byte other` says that the bytes may stand for each other in a run of
prefixes: they are equal, or both are idle, or both are REX prefixes with the same bit W. -/
inductive Interchangeable : UInt8 → UInt8 → Prop where
  | same (byte : UInt8) : Interchangeable byte byte
  | idle {byte other : UInt8} (hbyte : byte ∈ idlePrefixes) (hother : other ∈ idlePrefixes) :
      Interchangeable byte other
  | rex {byte other : UInt8} (hbyte : Rex.isRex byte = true) (hother : Rex.isRex other = true)
      (hw : (Rex.ofByte byte).w = (Rex.ofByte other).w) : Interchangeable byte other

/-- Whether a legacy prefix is a segment override or LOCK. -/
def LegacyPrefix.isIdle : LegacyPrefix → Bool
  | .segment _ | .lock => true
  | .operandSize | .addressSize | .repetition _ => false

theorem LegacyPrefix.exists_isIdle {byte : UInt8} (h : byte ∈ idlePrefixes) :
    ∃ legacy, ofByte? byte = some legacy ∧ legacy.isIdle = true := by
  have hall : idlePrefixes.all (fun byte => (ofByte? byte).any isIdle) = true := rfl
  exact (Option.any_eq_true _ _).mp (List.all_eq_true.mp hall byte h)

/-- Only prefix bytes stand for prefix bytes. -/
theorem isPrefixByte_of_interchangeable {byte other : UInt8} (h : Interchangeable byte other)
    (hbyte : isPrefixByte byte = true) : isPrefixByte other = true := by
  cases h with
  | same => exact hbyte
  | idle _ hother =>
      obtain ⟨legacy, hlegacy, -⟩ := LegacyPrefix.exists_isIdle hother
      refine isPrefixByte_of_isLegacy ?_
      rw [LegacyPrefix.isLegacy, hlegacy]
      rfl
  | rex _ hother _ => rw [isPrefixByte, hother, Bool.or_true]

/-! ## Runs of prefixes that differ in idle bits -/

namespace Prefixes

variable {policy : RexPolicy} {prefixes other : Prefixes}

theorem SameMeasure.afterLegacy (h : prefixes.SameMeasure other) (legacy : LegacyPrefix) :
    (prefixes.afterLegacy legacy).SameMeasure (other.afterLegacy legacy) := by
  obtain ⟨hoperand, haddress, hrepetition, -, -, hcount⟩ := h
  have hcount : prefixes.count + 1 = other.count + 1 := by rw [hcount]
  cases legacy with
  | segment | lock => exact ⟨hoperand, haddress, hrepetition, rfl, rfl, hcount⟩
  | operandSize => exact ⟨rfl, haddress, hrepetition, rfl, rfl, hcount⟩
  | addressSize => exact ⟨hoperand, rfl, hrepetition, rfl, rfl, hcount⟩
  | repetition => exact ⟨hoperand, haddress, rfl, rfl, rfl, hcount⟩

/-- It does not matter for the measure which idle prefix is added. -/
theorem SameMeasure.afterIdle (h : prefixes.SameMeasure other) {legacy found : LegacyPrefix}
    (hlegacy : legacy.isIdle = true) (hfound : found.isIdle = true) :
    (prefixes.afterLegacy legacy).SameMeasure (other.afterLegacy found) := by
  have hcount : prefixes.count + 1 = other.count + 1 := by rw [h.count_eq]
  cases legacy with
  | segment | lock =>
      cases found with
      | segment | lock =>
          exact ⟨h.operandSize_eq, h.addressSize_eq, h.repetition_eq, rfl, rfl, hcount⟩
      | operandSize | addressSize | repetition => cases hfound
  | operandSize | addressSize | repetition => cases hlegacy

theorem SameMeasure.afterRex (h : prefixes.SameMeasure other) {rex found : Rex}
    (hw : rex.w = found.w) : (prefixes.afterRex rex).SameMeasure (other.afterRex found) := by
  have hcount : prefixes.count + 1 = other.count + 1 := by rw [h.count_eq]
  exact ⟨h.operandSize_eq, h.addressSize_eq, h.repetition_eq, rfl, hw, hcount⟩

/-- Legacy prefixes stop both runs or continue both. -/
theorem SameMeasure.step?_legacy (h : prefixes.SameMeasure other) {byte found : UInt8}
    {legacy replaced : LegacyPrefix} (hbyte : LegacyPrefix.ofByte? byte = some legacy)
    (hfound : LegacyPrefix.ofByte? found = some replaced)
    (hafter : (prefixes.afterLegacy legacy).SameMeasure (other.afterLegacy replaced)) :
    Option.Rel SameMeasure (prefixes.step? policy byte) (other.step? policy found) := by
  simp only [Prefixes.step?, hbyte, hfound, h.isSome_rex_eq]
  by_cases hstop : other.rex.isSome = true ∧ policy = .strict
  · rw [if_pos hstop, if_pos hstop]
    exact .none
  · rw [if_neg hstop, if_neg hstop]
    exact .some hafter

theorem SameMeasure.step?_rex (h : prefixes.SameMeasure other) {byte found : UInt8}
    (hbyte : Rex.isRex byte = true) (hfound : Rex.isRex found = true)
    (hw : (Rex.ofByte byte).w = (Rex.ofByte found).w) :
    Option.Rel SameMeasure (prefixes.step? policy byte) (other.step? policy found) := by
  simp only [Prefixes.step?, LegacyPrefix.ofByte?_of_isRex hbyte,
    LegacyPrefix.ofByte?_of_isRex hfound, if_pos hbyte, if_pos hfound]
  exact .some (h.afterRex hw)

/-- One step over interchangeable bytes keeps the measure, or stops in front of both. -/
theorem SameMeasure.step? (h : prefixes.SameMeasure other) {byte found : UInt8}
    (hbytes : Interchangeable byte found) :
    Option.Rel SameMeasure (prefixes.step? policy byte) (other.step? policy found) := by
  cases hbytes with
  | idle hbyte hfound =>
      obtain ⟨legacy, hlegacy, hfirst⟩ := LegacyPrefix.exists_isIdle hbyte
      obtain ⟨replaced, hreplaced, hsecond⟩ := LegacyPrefix.exists_isIdle hfound
      exact h.step?_legacy hlegacy hreplaced (h.afterIdle hfirst hsecond)
  | rex hbyte hfound hw => exact h.step?_rex hbyte hfound hw
  | same =>
      cases hlegacy : LegacyPrefix.ofByte? byte with
      | some legacy => exact h.step?_legacy hlegacy hlegacy (h.afterLegacy legacy)
      | none =>
          by_cases hrex : Rex.isRex byte = true
          · exact h.step?_rex hrex hrex rfl
          · simp only [Prefixes.step?, hlegacy, if_neg hrex]
            exact .none

/-- Scans of two runs of interchangeable prefixes agree, or both stop in front of a legacy
prefix. -/
theorem scanFrom_variants {run variant tail : List UInt8}
    (hbytes : List.Forall₂ Interchangeable run variant)
    (hrun : ∀ byte ∈ run, isPrefixByte byte = true)
    (htail : ∀ byte ∈ tail.head?, isPrefixByte byte = false)
    (h : prefixes.SameMeasure other) (limit room : Nat) (input : Lookahead) :
    Reader.ResultsAgree SameMeasure
      (scanFrom policy limit room prefixes { input with rest := run ++ tail })
      (scanFrom policy limit room other { input with rest := variant ++ tail }) ∨
    ∃ byte found,
      StopsAtLegacy (scanFrom policy limit room prefixes { input with rest := run ++ tail }) byte ∧
      StopsAtLegacy (scanFrom policy limit room other { input with rest := variant ++ tail })
        found := by
  induction room generalizing prefixes other run variant input with
  | zero =>
      refine .inl ?_
      rw [scanFrom_zero, scanFrom_zero]
      exact .error _
  | succ room ih =>
      cases hbytes with
      | nil =>
          refine .inl ?_
          cases tail with
          | nil =>
              rw [scanFrom_of_rest_eq_nil _ _ _ _ rfl, scanFrom_of_rest_eq_nil _ _ _ _ rfl]
              exact .error _
          | cons byte tail =>
              have hstep (prefixes : Prefixes) : prefixes.step? policy byte = none :=
                step?_eq_none_iff.mpr (.inl (htail byte rfl))
              rw [scanFrom_of_rest_eq_cons _ _ _ _ rfl, scanFrom_of_rest_eq_cons _ _ _ _ rfl,
                hstep, hstep]
              exact .ok _ h
      | @cons byte found run variant hbyte hbytes =>
          obtain ⟨hprefixed, hrun⟩ := List.forall_mem_cons.mp hrun
          have hsteps : Option.Rel SameMeasure (prefixes.step? policy byte)
              (other.step? policy found) := h.step? hbyte
          generalize hfirst : prefixes.step? policy byte = first at hsteps
          generalize hsecond : other.step? policy found = second at hsteps
          cases hsteps with
          | none =>
              -- Prefix bytes that end the runs are conflicts, and they may differ.
              have hreplaced := isPrefixByte_of_interchangeable hbyte hprefixed
              exact .inr ⟨byte, found, stopsAtLegacy_of_step? rfl hprefixed hfirst,
                stopsAtLegacy_of_step? rfl hreplaced hsecond⟩
          | some hnext =>
              rw [scanFrom_of_rest_eq_cons _ _ _ _ rfl, scanFrom_of_rest_eq_cons _ _ _ _ rfl,
                hfirst, hsecond]
              exact ih hbytes hrun hnext { input with consumed := input.consumed + 1 }

end Prefixes

/-! ## Decoding variants -/

/-- `IdleVariants first second` says that two byte strings differ at most in their leading
prefixes, and there only by interchangeable bytes. -/
structure IdleVariants (first second : List UInt8) : Prop where
  prefixes : List.Forall₂ Interchangeable (first.takeWhile isPrefixByte)
    (second.takeWhile isPrefixByte)
  rest_eq : first.dropWhile isPrefixByte = second.dropWhile isPrefixByte

variable {first second : List UInt8}

/-- Variants are two runs of interchangeable prefixes in front of the same bytes. -/
theorem IdleVariants.exists_runs (h : IdleVariants first second) :
    ∃ run variant tail, first = run ++ tail ∧ second = variant ++ tail ∧
      List.Forall₂ Interchangeable run variant ∧
      (∀ byte ∈ run, isPrefixByte byte = true) ∧
      (∀ byte ∈ tail.head?, isPrefixByte byte = false) := by
  refine ⟨first.takeWhile isPrefixByte, second.takeWhile isPrefixByte,
    first.dropWhile isPrefixByte, List.takeWhile_append_dropWhile.symm, ?_, h.prefixes,
    fun byte hbyte => List.mem_takeWhile_imp hbyte, ?_⟩
  · rw [h.rest_eq, List.takeWhile_append_dropWhile]
  · intro byte hbyte
    have hhead := List.head?_dropWhile_not isPrefixByte first
    rw [hbyte] at hhead
    exact hhead

theorem IdleVariants.length_eq (h : IdleVariants first second) :
    first.length = second.length := by
  obtain ⟨run, variant, tail, rfl, rfl, hbytes, -⟩ := h.exists_runs
  rw [List.length_append, List.length_append, hbytes.length_eq]

/-- Variants are read as instructions of the same measure, or fail in the same way, or are
both in conflict. -/
theorem readInstruction_of_idleVariants (h : IdleVariants first second) (settings : Settings)
    (address : UInt64) (input : Lookahead) :
    Reader.ResultsAgree Instruction.SameMeasure
      (readInstruction settings address { input with rest := first })
      (readInstruction settings address { input with rest := second }) ∨
    ∃ byte found,
      readInstruction settings address { input with rest := first } =
        .error (.prefixConflict byte) ∧
      readInstruction settings address { input with rest := second } =
        .error (.prefixConflict found) := by
  obtain ⟨run, variant, tail, rfl, rfl, hbytes, hrun, htail⟩ := h.exists_runs
  have hstart : Prefixes.SameMeasure {} {} := ⟨rfl, rfl, rfl, rfl, rfl, rfl⟩
  obtain hagree | ⟨byte, found, hfirst, hsecond⟩ :=
    Prefixes.scanFrom_variants hbytes hrun htail hstart settings.lengthLimit
      (settings.lengthLimit - input.consumed) input
  · refine .inl ?_
    rw [readInstruction_eq_bind]
    exact Reader.ResultsAgree.bind hagree fun _ _ hmeasure => agree_readBody _ address hmeasure
  · exact .inr ⟨byte, found, readInstruction_eq_prefixConflict_iff.mpr hfirst,
      readInstruction_eq_prefixConflict_iff.mpr hsecond⟩

/-- Failures that are equal up to the byte that a conflict names. -/
structure Failure.SameUpToByte (failure other : Failure) : Prop where
  address_eq : failure.address = other.address
  cause : failure.cause = other.cause ∨
    ∃ byte found, failure.cause = .prefixConflict byte ∧ other.cause = .prefixConflict found

/-- The failure that a fault means depends on the length of the region only. -/
theorem Fault.toFailure_ofRegion (settings : Settings) (address : UInt64)
    (h : first.length = second.length) (fault : Fault) :
    fault.toFailure settings (.ofRegion first address) =
      fault.toFailure settings (.ofRegion second address) := by
  have hremaining : (Cursor.ofRegion first address).remaining =
      (Cursor.ofRegion second address).remaining := by
    show first.length - 0 = second.length - 0
    rw [h]
  unfold Fault.toFailure
  rw [Cursor.address_ofRegion, Cursor.address_ofRegion, hremaining]
  rfl

/-- Segment overrides, LOCK and the REX bits that extend registers do not interfere with
measurement. Variants of one byte string are both decoded, to instructions of the same length
and form that differ at most in the segment, in LOCK and in the high bits of register numbers,
or they both fail, in the same way up to the byte that a conflict names. -/
theorem decodeAt_idleVariants (settings : Settings) (address : UInt64)
    (h : IdleVariants first second) :
    (∃ instruction other, decodeAt settings first address = .ok instruction ∧
      decodeAt settings second address = .ok other ∧ instruction.SameMeasure other) ∨
    (∃ failure other, decodeAt settings first address = .error failure ∧
      decodeAt settings second address = .error other ∧ failure.SameUpToByte other) := by
  have hlength := h.length_eq
  have hend : (Cursor.ofRegion second address).isAtEnd =
      (Cursor.ofRegion first address).isAtEnd := by
    show (0 == second.length) = (0 == first.length)
    rw [hlength]
  let input : Lookahead := { start := 0, consumed := 0, capacity := first.length, rest := [] }
  have hfirst : (Cursor.ofRegion first address).lookahead = { input with rest := first } := rfl
  have hsecond : (Cursor.ofRegion second address).lookahead = { input with rest := second } := by
    show Lookahead.mk 0 0 second.length second = Lookahead.mk 0 0 first.length second
    rw [hlength]
  unfold decodeAt
  rw [outcome_decode, outcome_decode, hend, Cursor.address_ofRegion, Cursor.address_ofRegion,
    hfirst, hsecond]
  by_cases hempty : (Cursor.ofRegion first address).isAtEnd = true
  · rw [if_pos hempty, if_pos hempty]
    exact .inr ⟨_, _, rfl, rfl, rfl, .inl rfl⟩
  · rw [if_neg hempty, if_neg hempty]
    obtain hagree | ⟨byte, found, hbyte, hfound⟩ :=
      readInstruction_of_idleVariants h settings address input
    · generalize readInstruction settings address { input with rest := first } = result at hagree
      generalize readInstruction settings address { input with rest := second } = found at hagree
      cases hagree with
      | ok after hmeasure => exact .inl ⟨_, _, rfl, rfl, hmeasure⟩
      | error fault =>
          dsimp only
          rw [fault.toFailure_ofRegion settings address hlength]
          exact .inr ⟨_, _, rfl, rfl, rfl, .inl rfl⟩
    · rw [hbyte, hfound]
      refine .inr ⟨_, _, rfl, rfl, ?_, .inr ⟨byte, found, rfl, rfl⟩⟩
      show (Cursor.ofRegion first address).address = (Cursor.ofRegion second address).address
      rw [Cursor.address_ofRegion, Cursor.address_ofRegion]

/-- A load from an absolute address: the base field 5 stands for no base register under both
REX prefixes, although one of them extends it to 13. -/
theorem decodeAt_idleVariants_absolute_load :
    IdleVariants [0x26, 0x48, 0x8B, 0x04, 0x25, 0x10, 0x20, 0x00, 0x00]
      [0xF0, 0x4F, 0x8B, 0x04, 0x25, 0x10, 0x20, 0x00, 0x00] ∧
    ∃ instruction other,
      decodeAt {} [0x26, 0x48, 0x8B, 0x04, 0x25, 0x10, 0x20, 0x00, 0x00] 0x1000 =
        .ok instruction ∧
      decodeAt {} [0xF0, 0x4F, 0x8B, 0x04, 0x25, 0x10, 0x20, 0x00, 0x00] 0x1000 = .ok other ∧
      instruction.SameMeasure other ∧ instruction.length = 9 := by
  have hvariants : IdleVariants [0x26, 0x48, 0x8B, 0x04, 0x25, 0x10, 0x20, 0x00, 0x00]
      [0xF0, 0x4F, 0x8B, 0x04, 0x25, 0x10, 0x20, 0x00, 0x00] :=
    ⟨.cons (.idle (by decide) (by decide)) (.cons (.rex rfl rfl rfl) .nil), rfl⟩
  refine ⟨hvariants, ?_⟩
  obtain ⟨instruction, other, hfirst, hsecond, hmeasure⟩ | ⟨failure, -, hfailure, -⟩ :=
    decodeAt_idleVariants {} 0x1000 hvariants
  · refine ⟨instruction, other, hfirst, hsecond, hmeasure, ?_⟩
    cases hfirst
    rfl
  · cases hfailure

end LongMode
