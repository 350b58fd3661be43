import LongMode.Proofs.LengthLimit
import LongMode.Proofs.RexPolicies
import Mathlib.Data.List.Induction
import Mathlib.Data.List.TakeWhile
import Mathlib.Order.Bounds.Defs

/-!
# What the scan of the prefixes finds

A policy admits some runs of prefix bytes, and `leadingRun` is the longest of them that a byte
string starts with. The scan reads that run and nothing else, and fails where the run leaves no
room for an opcode (`Prefixes.scan_eq_tooLong`) or nothing follows it
(`Prefixes.scan_eq_outOfBounds`). What it has recorded at the end can be told from the run as a
whole (`Prefixes.declared`), because one byte more changes the declared state
(`Prefixes.declared_append_singleton`) as it changes the recorded one
(`Prefixes.eq_record_of_step?`).
-/

namespace LongMode

/-! ## Runs that a policy admits -/

/-- The runs of prefix bytes that a policy admits: legacy prefixes and then REX prefixes under the
strict policy, prefixes in any order under the lenient one. -/
def RexPolicy.Admits (policy : RexPolicy) (run : List UInt8) : Prop :=
  match policy with
  | .strict => ∃ legacies rexes, run = legacies ++ rexes ∧
      (∀ byte ∈ legacies, LegacyPrefix.isLegacy byte = true) ∧
      (∀ byte ∈ rexes, Rex.isRex byte = true)
  | .lenient => ∀ byte ∈ run, LegacyPrefix.isLegacy byte = true ∨ Rex.isRex byte = true

namespace Prefixes

variable {policy : RexPolicy} {prefixes result : Prefixes} {run : List UInt8} {byte : UInt8}

theorem run?_append (first second : List UInt8) :
    prefixes.run? policy (first ++ second) =
      (prefixes.run? policy first).bind fun between => between.run? policy second :=
  List.foldlM_append

/-- The lenient policy stops at no prefix byte. -/
theorem exists_run?_lenient (h : ∀ byte ∈ run, isPrefixByte byte = true) :
    ∃ result, prefixes.run? .lenient run = some result := by
  induction run generalizing prefixes with
  | nil => exact ⟨prefixes, rfl⟩
  | cons byte run ih =>
      obtain ⟨hbyte, hrun⟩ := List.forall_mem_cons.mp h
      obtain ⟨next, hstep⟩ : ∃ next, prefixes.step? .lenient byte = some next := by
        rw [← Option.ne_none_iff_exists', ne_eq, step?_eq_none_iff]
        simp [hbyte]
      obtain ⟨result, hresult⟩ := @ih next hrun
      exact ⟨result, Option.bind_eq_some_iff.mpr ⟨next, hstep, hresult⟩⟩

/-- A run can be scanned exactly when the policy admits it. -/
theorem exists_run?_iff : (∃ result, run? policy {} run = some result) ↔ policy.Admits run := by
  refine ⟨?_, ?_⟩
  · rintro ⟨result, hrun⟩
    cases policy with
    | strict =>
        obtain ⟨legacies, rexes, heq, hlegacies, hrexes, -⟩ := run?_strict_sound hrun
        exact ⟨legacies, rexes, heq, hlegacies, hrexes⟩
    | lenient =>
        intro byte hbyte
        exact (Bool.or_eq_true _ _).mp (isPrefixByte_of_run? hrun byte hbyte)
  · intro h
    cases policy with
    | strict =>
        obtain ⟨legacies, rexes, rfl, hlegacies, hrexes⟩ := h
        obtain ⟨between, hbetween, -⟩ := run?_of_isLegacy (rfl : Prefixes.rex {} = none) hlegacies
        obtain ⟨result, hresult, -⟩ := run?_of_isRex hrexes
        refine ⟨result, ?_⟩
        rw [run?_append, hbetween]
        exact hresult
    | lenient =>
        exact exists_run?_lenient fun byte hbyte => (Bool.or_eq_true _ _).mpr (h byte hbyte)

/-- A scan that goes on from a run goes on from every earlier place in it. -/
theorem exists_run?_of_append {more : List UInt8}
    (h : ∃ result, prefixes.run? policy (run ++ more) = some result) :
    ∃ result, prefixes.run? policy run = some result := by
  obtain ⟨result, hresult⟩ := h
  rw [run?_append] at hresult
  obtain ⟨between, hbetween, -⟩ := Option.bind_eq_some_iff.mp hresult
  exact ⟨between, hbetween⟩

end Prefixes

/-! ## The longest run -/

theorem eq_false_of_mem_head?_dropWhile {passes : UInt8 → Bool} {source : List UInt8}
    {byte : UInt8} (h : byte ∈ (source.dropWhile passes).head?) : passes byte = false := by
  have hhead := List.head?_dropWhile_not passes source
  rw [h] at hhead
  exact hhead

namespace RexPolicy

/-- The longest run that a policy admits at the start of a byte string. -/
def leadingRun (policy : RexPolicy) (source : List UInt8) : List UInt8 :=
  match policy with
  | .strict =>
      source.takeWhile LegacyPrefix.isLegacy
        ++ (source.dropWhile LegacyPrefix.isLegacy).takeWhile Rex.isRex
  | .lenient => source.takeWhile isPrefixByte

/-- What follows the longest run. -/
def behindRun (policy : RexPolicy) (source : List UInt8) : List UInt8 :=
  match policy with
  | .strict => (source.dropWhile LegacyPrefix.isLegacy).dropWhile Rex.isRex
  | .lenient => source.dropWhile isPrefixByte

theorem leadingRun_append_behindRun (policy : RexPolicy) (source : List UInt8) :
    policy.leadingRun source ++ policy.behindRun source = source := by
  cases policy with
  | strict =>
      show _ ++ List.takeWhile _ _ ++ List.dropWhile _ _ = _
      rw [List.append_assoc, List.takeWhile_append_dropWhile, List.takeWhile_append_dropWhile]
  | lenient => exact List.takeWhile_append_dropWhile

theorem take_length_leadingRun (policy : RexPolicy) (source : List UInt8) :
    source.take (policy.leadingRun source).length = policy.leadingRun source := by
  have h := congrArg (List.take (policy.leadingRun source).length)
    (policy.leadingRun_append_behindRun source)
  rw [List.take_left] at h
  exact h.symm

theorem drop_length_leadingRun (policy : RexPolicy) (source : List UInt8) :
    source.drop (policy.leadingRun source).length = policy.behindRun source := by
  have h := congrArg (List.drop (policy.leadingRun source).length)
    (policy.leadingRun_append_behindRun source)
  rw [List.drop_left] at h
  exact h.symm

/-- A byte in front of which a strict scan stops behind some REX prefixes. -/
theorem step?_strict_eq_none {result : Prefixes} {middle : List UInt8} {byte : UInt8}
    (hmiddle : ∀ first ∈ middle.head?, LegacyPrefix.isLegacy first = false)
    (hrex : middle.takeWhile Rex.isRex ≠ [] → result.rex.isSome = true)
    (hbyte : byte ∈ (middle.dropWhile Rex.isRex).head?) :
    result.step? .strict byte = none := by
  have hother := eq_false_of_mem_head?_dropWhile hbyte
  rw [Prefixes.step?_eq_none_iff]
  by_cases hlegacy : LegacyPrefix.isLegacy byte = true
  · -- A legacy prefix can only stand here behind a REX prefix.
    refine .inr ⟨hlegacy, hrex fun hnone => ?_, rfl⟩
    have hsplit := @List.takeWhile_append_dropWhile _ Rex.isRex middle
    rw [hnone, List.nil_append] at hsplit
    rw [hsplit] at hbyte
    rw [hmiddle byte hbyte] at hlegacy
    cases hlegacy
  · refine .inl ?_
    rw [isPrefixByte, hother, Bool.or_false]
    simpa using hlegacy

/-- The scan reads the whole of the longest run and stops in front of what follows it. -/
theorem exists_run?_leadingRun (policy : RexPolicy) (source : List UInt8) :
    ∃ result, Prefixes.run? policy {} (policy.leadingRun source) = some result ∧
      ∀ byte ∈ (policy.behindRun source).head?, result.step? policy byte = none := by
  cases policy with
  | strict =>
      let middle := source.dropWhile LegacyPrefix.isLegacy
      have hlegacies : ∀ byte ∈ source.takeWhile LegacyPrefix.isLegacy,
          LegacyPrefix.isLegacy byte = true := fun byte => List.mem_takeWhile_imp
      have hrexes : ∀ byte ∈ middle.takeWhile Rex.isRex, Rex.isRex byte = true :=
        fun byte => List.mem_takeWhile_imp
      obtain ⟨between, hbetween, -⟩ :=
        Prefixes.run?_of_isLegacy (rfl : Prefixes.rex {} = none) hlegacies
      obtain ⟨result, hresult, hrex⟩ := Prefixes.run?_of_isRex hrexes
      refine ⟨result, ?_, ?_⟩
      · show Prefixes.run? .strict {} (_ ++ middle.takeWhile Rex.isRex) = _
        rw [Prefixes.run?_append, hbetween]
        exact hresult
      · intro byte hbyte
        exact step?_strict_eq_none (fun first => eq_false_of_mem_head?_dropWhile)
          (fun hne => hrex (.inr hne)) hbyte
  | lenient =>
      obtain ⟨result, hresult⟩ := @Prefixes.exists_run?_lenient {}
        (source.takeWhile isPrefixByte) fun byte => List.mem_takeWhile_imp
      refine ⟨result, hresult, ?_⟩
      intro byte hbyte
      exact Prefixes.step?_eq_none_iff.mpr (.inl (eq_false_of_mem_head?_dropWhile hbyte))

/-- The longest run is as long as any that the policy admits at the start of the string. -/
theorem isGreatest_length_leadingRun (policy : RexPolicy) (source : List UInt8) :
    IsGreatest {count | count ≤ source.length ∧ policy.Admits (source.take count)}
      (policy.leadingRun source).length := by
  have hsource := policy.leadingRun_append_behindRun source
  obtain ⟨result, hrun, hstop⟩ := policy.exists_run?_leadingRun source
  refine ⟨⟨?_, ?_⟩, ?_⟩
  · have hlength := congrArg List.length hsource
    rw [List.length_append] at hlength
    omega
  · rw [take_length_leadingRun]
    exact Prefixes.exists_run?_iff.mp ⟨result, hrun⟩
  · rintro count ⟨hcount, hadmits⟩
    refine Nat.le_of_not_lt fun hlonger => ?_
    -- A longer run would go on with the byte that the scan stops in front of.
    cases hbehind : policy.behindRun source with
    | nil =>
        rw [hbehind, List.append_nil] at hsource
        rw [hsource] at hlonger
        omega
    | cons byte rest =>
        have hstart : policy.leadingRun source ++ [byte] <+: source.take count := by
          refine List.prefix_take_iff.mpr ⟨⟨rest, ?_⟩, ?_⟩
          · rw [List.append_assoc, List.singleton_append, ← hbehind, hsource]
          · rw [List.length_append]
            exact hlonger
        obtain ⟨more, hmore⟩ := hstart
        rw [← hmore] at hadmits
        obtain ⟨further, hfurther⟩ :=
          Prefixes.exists_run?_of_append (Prefixes.exists_run?_iff.mpr hadmits)
        rw [Prefixes.run?_append, hrun, Option.bind_some] at hfurther
        obtain ⟨next, hstep, -⟩ := Option.bind_eq_some_iff.mp hfurther
        rw [hstop byte (by rw [hbehind]; rfl)] at hstep
        cases hstep

end RexPolicy

/-! ## The declared state -/

/-- The repeat prefix that a byte stands for. -/
def RepeatPrefix.ofByte? (byte : UInt8) : Option RepeatPrefix :=
  if byte = 0xF2 then some .repne
  else if byte = 0xF3 then some .rep
  else none

/-- A legacy prefix is named by its byte only. -/
theorem LegacyPrefix.eq_toByte_of_ofByte? {byte : UInt8} {legacy : LegacyPrefix}
    (h : ofByte? byte = some legacy) : byte = legacy.toByte := by
  have hall : ∀ bits : BitVec 8, ∀ found ∈ ofByte? ⟨bits⟩, found.toByte = ⟨bits⟩ := by
    decide +kernel
  exact (hall byte.toBitVec legacy h).symm

namespace Prefixes

variable {policy : RexPolicy} {prefixes result : Prefixes} {run : List UInt8} {byte : UInt8}

/-- The state that a run of prefix bytes declares: the last segment override and the last repeat
prefix in it, which of the other legacy prefixes occur in it, and the REX prefix if it is the
last byte. -/
def declared (run : List UInt8) : Prefixes where
  segment := (run.filterMap Segment.ofByte?).getLast?
  operandSize := run.contains 0x66
  addressSize := run.contains 0x67
  repetition := (run.filterMap RepeatPrefix.ofByte?).getLast?
  lock := run.contains 0xF0
  rex := (run.getLast?.filter Rex.isRex).map Rex.ofByte
  count := UInt8.ofNat run.length

/-- The state with one more prefix byte, category by category. -/
def record (prefixes : Prefixes) (byte : UInt8) : Prefixes where
  segment := (Segment.ofByte? byte).or prefixes.segment
  operandSize := 0x66 == byte || prefixes.operandSize
  addressSize := 0x67 == byte || prefixes.addressSize
  repetition := (RepeatPrefix.ofByte? byte).or prefixes.repetition
  lock := 0xF0 == byte || prefixes.lock
  rex := if Rex.isRex byte then some (Rex.ofByte byte) else none
  count := prefixes.count + 1

theorem afterLegacy_eq_record {legacy : LegacyPrefix}
    (h : LegacyPrefix.ofByte? byte = some legacy) :
    prefixes.afterLegacy legacy = prefixes.record byte := by
  obtain rfl := LegacyPrefix.eq_toByte_of_ofByte? h
  cases legacy with
  | segment register => cases register <;> rfl
  | repetition kind => cases kind <;> rfl
  | operandSize | addressSize | lock => rfl

theorem afterRex_eq_record (h : LegacyPrefix.ofByte? byte = none) (hrex : Rex.isRex byte = true) :
    prefixes.afterRex (Rex.ofByte byte) = prefixes.record byte := by
  have hsegment : Segment.ofByte? byte = none := by
    grind [LegacyPrefix.ofByte?, Option.map_eq_none_iff]
  have hrepetition : RepeatPrefix.ofByte? byte = none := by
    grind [LegacyPrefix.ofByte?, RepeatPrefix.ofByte?]
  have hother : (0x66 == byte) = false ∧ (0x67 == byte) = false ∧ (0xF0 == byte) = false := by
    grind [LegacyPrefix.ofByte?]
  simp [afterRex, record, hsegment, hrepetition, hother, hrex]

/-- One step of the scan records a byte in its category. -/
theorem eq_record_of_step? (h : prefixes.step? policy byte = some result) :
    result = prefixes.record byte := by
  obtain ⟨legacy, hlegacy, -, rfl⟩ | ⟨hlegacy, hrex, rfl⟩ := step?_cases h
  · exact afterLegacy_eq_record hlegacy
  · exact afterRex_eq_record hlegacy hrex

/-- One more byte changes the declared state as it changes the recorded one. -/
theorem declared_append_singleton (run : List UInt8) (byte : UInt8) :
    declared (run ++ [byte]) = (declared run).record byte := by
  have hcontains (target : UInt8) :
      (run ++ [byte]).contains target = (target == byte || run.contains target) := by
    rw [List.contains_append, Bool.or_comm, List.contains_cons, List.contains_nil, Bool.or_false]
  have hlast {α : Type} (meaning? : UInt8 → Option α) :
      ((run ++ [byte]).filterMap meaning?).getLast? =
        (meaning? byte).or (run.filterMap meaning?).getLast? := by
    rw [List.filterMap_append, List.getLast?_append]
    cases h : meaning? byte <;> simp [h]
  have hrex : ((run ++ [byte]).getLast?.filter Rex.isRex).map Rex.ofByte =
      if Rex.isRex byte then some (Rex.ofByte byte) else none := by
    rw [List.getLast?_concat, Option.filter_some]
    split <;> rfl
  have hcount : UInt8.ofNat (run ++ [byte]).length = UInt8.ofNat run.length + 1 := by
    rw [List.length_append, UInt8.ofNat_add]
    rfl
  simp only [declared, record, hcontains, hlast, hrex, hcount]

/-- A scan records what its run declares. -/
theorem eq_declared_of_run? (h : run? policy {} run = some result) : result = declared run := by
  induction run using List.reverseRecOn generalizing result with
  | nil => exact (Option.some.inj h).symm
  | append_singleton run byte ih =>
      rw [run?_append] at h
      obtain ⟨between, hbetween, hstep⟩ := Option.bind_eq_some_iff.mp h
      obtain ⟨next, hnext, hlast⟩ := Option.bind_eq_some_iff.mp hstep
      obtain rfl : next = result := Option.some.inj hlast
      rw [declared_append_singleton, ← ih hbetween]
      exact eq_record_of_step? hnext

/-! ## The result of the scan -/

/-- A scan that has room left runs out of bounds where its run ends with the input. -/
theorem scanFrom_eq_outOfBounds {limit room : Nat} {input : Lookahead} (hroom : run.length < room)
    (hrun : prefixes.run? policy run = some result) (hrest : input.rest = run) :
    scanFrom policy limit room prefixes input =
      .error (.outOfBounds
        { offset := input.start + (input.consumed + run.length)
          needed := 1
          capacity := input.capacity }) := by
  induction run generalizing room prefixes input with
  | nil =>
      obtain ⟨room, rfl⟩ := Nat.exists_eq_succ_of_ne_zero (Nat.ne_of_gt hroom)
      exact scanFrom_of_rest_eq_nil policy limit room prefixes hrest
  | cons byte run ih =>
      obtain ⟨room, rfl⟩ := Nat.exists_eq_succ_of_ne_zero (Nat.ne_of_gt (Nat.zero_lt_of_lt hroom))
      obtain ⟨next, hstep, hrun⟩ := Option.bind_eq_some_iff.mp hrun
      rw [scanFrom_of_rest_eq_cons policy limit room prefixes hrest, hstep]
      dsimp only
      rw [ih (Nat.lt_of_succ_lt_succ hroom) hrun rfl]
      simp only [List.length_cons]
      rw [show input.consumed + 1 + run.length = input.consumed + (run.length + 1) by omega]

variable {limit : Nat} {input : Lookahead}

/-- A run that fills the limit is too long. -/
theorem scan_eq_tooLong (hfresh : input.consumed = 0)
    (hlimit : limit ≤ (policy.leadingRun input.rest).length) :
    scan policy limit input = .error (.malformed (.tooLong (limit + 1) limit)) := by
  obtain ⟨result, hrun, -⟩ := policy.exists_run?_leadingRun input.rest
  have hscan := @scanFrom_eq_tooLong policy {} result limit limit input _ _ hlimit hrun
    (policy.leadingRun_append_behindRun input.rest).symm
  show scanFrom policy limit (limit - input.consumed) {} input = _
  rw [hfresh] at hscan ⊢
  rwa [Nat.zero_add] at hscan

/-- A run with nothing behind it runs out of bounds. -/
theorem scan_eq_outOfBounds (hfresh : input.consumed = 0)
    (hlimit : (policy.leadingRun input.rest).length < limit)
    (hbehind : policy.behindRun input.rest = []) :
    scan policy limit input =
      .error (.outOfBounds
        { offset := input.start + (policy.leadingRun input.rest).length
          needed := 1
          capacity := input.capacity }) := by
  obtain ⟨result, hrun, -⟩ := policy.exists_run?_leadingRun input.rest
  have hrest := policy.leadingRun_append_behindRun input.rest
  rw [hbehind, List.append_nil] at hrest
  have hscan := @scanFrom_eq_outOfBounds policy {} result _ limit limit input hlimit hrun hrest.symm
  show scanFrom policy limit (limit - input.consumed) {} input = _
  rw [hfresh] at hscan ⊢
  rwa [Nat.zero_add] at hscan

/-- Any other run is read to its end, and what it declares is recorded. -/
theorem scan_eq_declared (hfresh : input.consumed = 0)
    (hlimit : (policy.leadingRun input.rest).length < limit)
    (hbehind : policy.behindRun input.rest ≠ []) :
    scan policy limit input =
      .ok (declared (policy.leadingRun input.rest),
        { input with
          consumed := (policy.leadingRun input.rest).length
          rest := policy.behindRun input.rest }) := by
  obtain ⟨result, hrun, hstop⟩ := policy.exists_run?_leadingRun input.rest
  obtain rfl := eq_declared_of_run? hrun
  obtain ⟨byte, hbyte⟩ := Option.ne_none_iff_exists'.mp (mt List.head?_eq_none_iff.mp hbehind)
  refine scan_eq_ok_iff.mpr ⟨policy.leadingRun input.rest, by omega, hrun,
    ⟨byte, hbyte, hstop byte hbyte⟩, ?_⟩
  exact ⟨(policy.leadingRun_append_behindRun input.rest).symm, by simp [hfresh], rfl, rfl⟩

/-- The scan computes the state that the longest run of prefixes declares. A run that fills the
limit is too long, and one with nothing behind it runs out of bounds right there. Any other run
is read to its end and no further. The state counts its bytes and has, under both policies alike,
the last segment override and the last repeat prefix in it, what other legacy prefixes occur in
it, and the REX prefix if that is its last byte. The limit has to be one that a byte can
count. -/
theorem scan_computes_declared (policy : RexPolicy) {limit : Nat} (hlimit : limit ≤ 256)
    (cursor : Cursor) :
    let source := cursor.region.drop cursor.position
    let k := (policy.leadingRun source).length
    let run := source.take k
    IsGreatest {count | count ≤ source.length ∧ policy.Admits (source.take count)} k ∧
    (limit ≤ k → scan policy limit cursor.lookahead =
      .error (.malformed (.tooLong (limit + 1) limit))) ∧
    (k < limit → source.length = k → scan policy limit cursor.lookahead =
      .error (.outOfBounds
        { offset := cursor.position + k, needed := 1, capacity := cursor.capacity })) ∧
    (k < limit → k < source.length → ∃ state after,
      scan policy limit cursor.lookahead = .ok (state, after) ∧
      after = { cursor.lookahead with consumed := k, rest := source.drop k } ∧
      state.count.toNat = k ∧
      state.segment = (run.filterMap Segment.ofByte?).getLast? ∧
      state.repetition = (run.filterMap RepeatPrefix.ofByte?).getLast? ∧
      (state.operandSize = true ↔ 0x66 ∈ run) ∧
      (state.addressSize = true ↔ 0x67 ∈ run) ∧
      (state.lock = true ↔ 0xF0 ∈ run) ∧
      state.rex = (run.getLast?.filter Rex.isRex).map Rex.ofByte) := by
  intro source k run
  have hrun : run = policy.leadingRun source := policy.take_length_leadingRun source
  have hbehind : source.drop k = policy.behindRun source := policy.drop_length_leadingRun source
  refine ⟨policy.isGreatest_length_leadingRun source, ?_, ?_, ?_⟩
  · intro hlong
    exact scan_eq_tooLong rfl hlong
  · intro hroom hend
    refine scan_eq_outOfBounds rfl hroom ?_
    show policy.behindRun source = []
    rw [← hbehind, ← hend, List.drop_length]
  · intro hroom hmore
    have hne : policy.behindRun source ≠ [] := by
      rw [← hbehind, ne_eq, List.drop_eq_nil_iff]
      omega
    have hscan := @scan_eq_declared policy limit cursor.lookahead rfl hroom hne
    have hcount : (UInt8.ofNat k).toNat = k := by
      rw [UInt8.toNat_ofNat']
      omega
    refine ⟨_, _, hscan, ?_, hcount, ?_⟩
    · rw [hbehind]
      rfl
    · rw [hrun]
      exact ⟨rfl, rfl, List.contains_iff_mem, List.contains_iff_mem, List.contains_iff_mem, rfl⟩

/-- Prefixes of two REX bytes and two of each repeated category, one byte into a region: the
lenient scan reads all seven and keeps the last of each. -/
theorem scan_computes_declared_repeated :
    ∃ state after,
      scan .lenient 15 (Cursor.lookahead
        ⟨[0x90, 0x2E, 0x48, 0x66, 0x65, 0xF3, 0xF2, 0x4C, 0x89, 0xC3], 1, 0x1000⟩) =
          .ok (state, after) ∧
      after.consumed = 7 ∧ after.rest = [0x89, 0xC3] ∧ state.count.toNat = 7 ∧
      state.segment = some .gs ∧ state.repetition = some .repne ∧ state.operandSize = true ∧
      state.rex = some { w := true, r := true } := by
  obtain ⟨-, -, -, hread⟩ := scan_computes_declared .lenient (by decide : 15 ≤ 256)
    ⟨[0x90, 0x2E, 0x48, 0x66, 0x65, 0xF3, 0xF2, 0x4C, 0x89, 0xC3], 1, 0x1000⟩
  obtain ⟨state, after, hscan, rfl, hcount, hsegment, hrepetition, hsize, -, -, hrex⟩ :=
    hread (by decide) (by decide)
  exact ⟨state, _, hscan, rfl, rfl, hcount, hsegment, hrepetition, hsize.mpr (by decide), hrex⟩

end Prefixes

end LongMode
