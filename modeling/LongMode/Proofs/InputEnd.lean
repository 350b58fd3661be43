import LongMode.Proofs.Agreement
import LongMode.Proofs.FileRun
import LongMode.Proofs.ReadWindow
import LongMode.Proofs.ScannedPrefixes
import LongMode.Proofs.Slices

/-!
# What is left when the input runs out

A decode call runs out of input at an instruction whose last bytes are missing. Every walk over a
region ends there, but the bytes of such an instruction need not be the end of what can be decoded:
read from a later position they may be instructions of their own. `Cursor.IsFinal` says that this
does not happen at a cursor. Whether it can happen depends only on how many bytes are left, as
`exists_not_isFinal` shows with bytes that are both the operands of one instruction and the opcodes
of others. What a walk misses lies within the instruction that it stops at
(`lt_length_of_isOutOfInput`).
-/

namespace LongMode

open Reader

variable {settings : Settings} {cursor : Cursor} {source : List UInt8} {address : UInt64}

/-- No position behind the cursor holds an instruction. -/
def Cursor.IsFinal (cursor : Cursor) (settings : Settings) : Prop :=
  ∀ later found, cursor.position < later →
    (decode settings { cursor with position := later }).outcome ≠ .ok found

/-! ## Where walks end -/

/-- A run makes no step from a position where the input runs out. -/
theorem CommandLine.run_of_stop {failure : Failure} (resync : Bool)
    (hposition : cursor.position ≤ cursor.capacity)
    (h : (decode settings cursor).outcome = .error failure)
    (hstop : failure.isResynchronizable = false) :
    ∃ events, run settings resync cursor = .ok { items := [], last := failure, events } := by
  obtain ⟨⟨items, last, events, tally⟩, stop, hrun, hleads, htally, -, hlast, -⟩ :=
    run_leads settings resync cursor {} hposition
  refine ⟨events, hrun.trans ?_⟩
  cases hleads with
  | here =>
      obtain rfl := Except.error.inj (hlast.symm.trans h)
      obtain rfl : tally = {} := htally
      rfl
  | decoded houtcome htail => cases houtcome.symm.trans h
  | skipped houtcome hresume hskip htail =>
      obtain rfl := Except.error.inj (houtcome.symm.trans h)
      rw [hstop, Bool.and_false] at hresume
      cases hresume

/-- Less than the bytes that ran out do not suffice either. -/
theorem isOutOfInput_take (h : IsOutOfInput (decodeAt settings source address)) (count : Nat) :
    IsOutOfInput (decodeAt settings (source.take count) address) := by
  refine Classical.byContradiction fun hin => hin ?_
  have happend := decodeAt_append hin (source.drop count)
  rw [List.take_append_drop] at happend
  rwa [happend] at h

/-- An instruction that starts where the input ran out ends behind it. -/
theorem length_lt_of_isOutOfInput (h : IsOutOfInput (decodeAt settings source address))
    {extra : List UInt8} {whole : Instruction}
    (hwhole : decodeAt settings (source ++ extra) address = .ok whole) :
    source.length < whole.length := by
  refine Nat.lt_of_not_le fun hshort => ?_
  have htake := decodeAt_take_of_length_le hwhole hshort
  rw [List.take_left] at htake
  rw [htake] at h
  exact not_isOutOfInput_ok whole h

/-! ## Operands that are opcodes -/

/-- LOCK prefixes, and an operation on memory that takes an SIB byte, a displacement and a constant
of four bytes. Its last byte is missing, and each of its operand bytes is the opcode of an
exchange. -/
def unfinished (count : Nat) : List UInt8 :=
  List.replicate count 0xF0 ++ 0x81 :: List.replicate 9 0x94

theorem length_unfinished (count : Nat) : (unfinished count).length = count + 10 := by
  rw [unfinished, List.length_append, List.length_replicate]
  rfl

/-- Behind its opcode there are nothing but exchanges. -/
theorem drop_unfinished (count : Nat) :
    (unfinished count).drop (count + 1) = List.replicate 9 0x94 := by
  rw [unfinished, List.append_cons]
  exact List.drop_left' (by simp)

/-- LOCK prefixes measure as no prefixes at all. -/
theorem Prefixes.sameMeasure_declared_lock (count : Nat) :
    (declared (List.replicate count 0xF0)).SameMeasure { count := UInt8.ofNat count } := by
  have hrex : (declared (List.replicate count 0xF0)).rex = none := by
    show ((List.replicate count 0xF0).getLast?.filter Rex.isRex).map Rex.ofByte = none
    rw [List.getLast?_replicate]
    split
    · rfl
    · rfl
  refine ⟨?_, ?_, ?_, ?_, ?_, ?_⟩
  · simp [declared]
  · simp [declared]
  · simp [declared, RepeatPrefix.ofByte?]
  · rw [hrex]
  · rw [rexW, rexOrClear, hrex]
    rfl
  · simp [declared]

/-- The operation runs out of bounds behind prefixes that do not change its size. -/
theorem readBody_unfinished (limit : Nat) (address : UInt64) {prefixes : Prefixes} {count : UInt8}
    (hprefixes : prefixes.SameMeasure { count }) {input : Lookahead}
    (hrest : input.rest = 0x81 :: List.replicate 9 0x94) :
    ∃ bounds, readBody limit address prefixes input = .error (.outOfBounds bounds) := by
  obtain ⟨start, consumed, capacity, rest⟩ := input
  obtain rfl : rest = _ := hrest
  let behind : Lookahead := ⟨start, consumed + 1 + 1 + 1 + 4, capacity, [0x94, 0x94, 0x94]⟩
  obtain ⟨operands, hoperands⟩ : ∃ operands, readOperands { count } .present
      ⟨start, consumed + 1, capacity, List.replicate 9 0x94⟩ = .ok (operands, behind) := by
    rw [readOperands_of_ne_absent (by decide)]
    show ∃ operands, (Addressing.read {} .present >>= fun result =>
      pure (some result.1, result.2)) _ = _
    exact ⟨_, bind_eq_ok_iff.mpr ⟨_, behind, rfl, rfl⟩⟩
  have hplain : readBody limit address { count }
      ⟨start, consumed, capacity, 0x81 :: List.replicate 9 0x94⟩ =
        .error (.outOfBounds (behind.outOfBounds 4)) := by
    refine bind_eq_error_iff.mpr (.inr ⟨⟨.oneByte, 0x81⟩, _, rfl, ?_⟩)
    refine bind_eq_error_iff.mpr (.inr ⟨⟨.present, .operandSized⟩, _, rfl, ?_⟩)
    refine bind_eq_error_iff.mpr (.inr ⟨_, _, rfl, ?_⟩)
    exact bind_eq_error_iff.mpr (.inr ⟨_, behind, hoperands, rfl⟩)
  have hagree := agree_readBody limit address hprefixes
    ⟨start, consumed, capacity, 0x81 :: List.replicate 9 0x94⟩
  rw [hplain] at hagree
  exact ⟨_, hagree.eq_error⟩

theorem isOutOfInput_unfinished {count : Nat} (h : count < settings.lengthLimit) :
    IsOutOfInput (decodeAt settings (unfinished count) address) := by
  let run : List UInt8 := List.replicate count 0xF0
  let body : List UInt8 := 0x81 :: List.replicate 9 0x94
  let input := (Cursor.ofRegion (unfinished count) address).lookahead
  let between : Lookahead := { input with consumed := run.length, rest := body }
  have hlegacies : ∀ byte ∈ run, LegacyPrefix.isLegacy byte = true := by
    intro byte hbyte
    rw [List.eq_of_mem_replicate hbyte]
    rfl
  obtain ⟨prefixes, hrun, -⟩ :=
    Prefixes.run?_of_isLegacy (rfl : Prefixes.rex {} = none) hlegacies
  obtain rfl := Prefixes.eq_declared_of_run? hrun
  have hreads : input.Reads run between := ⟨rfl, (Nat.zero_add _).symm, rfl, rfl⟩
  have hroom : input.consumed + run.length < settings.lengthLimit := by
    show 0 + (List.replicate count _).length < _
    rw [List.length_replicate]
    omega
  have hscan : Prefixes.scan settings.rexPolicy settings.lengthLimit input =
      .ok (Prefixes.declared run, between) :=
    Prefixes.scan_eq_ok_iff.mpr ⟨run, hroom, hrun,
      ⟨0x81, rfl, Prefixes.step?_eq_none_iff.mpr (.inl rfl)⟩, hreads⟩
  obtain ⟨bounds, hbody⟩ := readBody_unfinished settings.lengthLimit address
    (Prefixes.sameMeasure_declared_lock count) (rfl : between.rest = body)
  have hne : unfinished count ≠ [] := List.append_ne_nil_of_right_ne_nil run (by decide)
  rw [isOutOfInput_decodeAt_iff hne, readInstruction_eq_bind]
  exact ⟨bounds, bind_eq_error_iff.mpr (.inr ⟨_, between, hscan, hbody⟩)⟩

/-- An exchange is one byte long, which no limit refuses. -/
theorem exists_decodeAt_exchange (settings : Settings) (rest : List UInt8) (address : UInt64) :
    ∃ found, decodeAt settings (0x94 :: rest) address = .ok found := by
  obtain ⟨found, hfound, hlength⟩ : ∃ found,
      decodeAt { rexPolicy := settings.rexPolicy } [0x94] address = .ok found ∧
        found.length = 1 := by
    cases settings.rexPolicy <;> exact ⟨_, rfl, rfl⟩
  have hshort : decodeAt settings [0x94] address = .ok found :=
    decodeAt_of_length_le hfound rfl (by rw [hlength]; exact settings.one_le_lengthLimit)
  refine ⟨found, (decodeAt_append ?_ rest).trans hshort⟩
  rw [hshort]
  exact not_isOutOfInput_ok found

/-- Unless there is at most one byte left, or more than decoding can ask for, the input may run out
in front of an instruction. -/
theorem exists_not_isFinal (settings : Settings) (base : UInt64) {remaining : Nat}
    (hmany : 2 ≤ remaining) (hfew : remaining ≤ settings.lengthLimit + 9) :
    ∃ region, region.length = remaining ∧ IsOutOfInput (decodeAt settings region base) ∧
      ¬ (Cursor.ofRegion region base).IsFinal settings := by
  have hlimit := settings.one_le_lengthLimit
  let count := min (remaining - 2) (settings.lengthLimit - 1)
  refine ⟨(unfinished count).take remaining, ?_, ?_, ?_⟩
  · rw [List.length_take, length_unfinished]
    omega
  · exact isOutOfInput_take (isOutOfInput_unfinished (by omega)) remaining
  · intro hfinal
    -- The operand byte behind the opcode is still there.
    obtain ⟨more, hmore⟩ : ∃ more, remaining - (count + 1) = more + 1 :=
      ⟨remaining - (count + 2), by omega⟩
    have hrest : ((unfinished count).take remaining).drop (count + 1) =
        0x94 :: (List.replicate 8 0x94).take more := by
      rw [List.drop_take, drop_unfinished, hmore]
      rfl
    obtain ⟨found, hfound⟩ := exists_decodeAt_exchange settings
      ((List.replicate 8 0x94).take more) (base + UInt64.ofNat (count + 1))
    refine hfinal (count + 1) found (Nat.succ_pos count) ?_
    rw [outcome_eq_decodeAt settings]
    · show decodeAt settings (((unfinished count).take remaining).drop (count + 1)) _ = _
      rw [hrest]
      exact hfound
    · show count + 1 ≤ ((unfinished count).take remaining).length
      rw [List.length_take, length_unfinished]
      omega

/-! ## What is missed -/

/-- There is no position for an instruction behind the last byte. -/
theorem isFinal_of_remaining_le (h : cursor.remaining ≤ 1) : cursor.IsFinal settings := by
  intro later found hlater hfound
  obtain ⟨hend, hpos⟩ := Cursor.position_add_length_le hfound
  have hcapacity : later + found.length ≤ cursor.capacity := hend
  rw [Cursor.remaining] at h
  omega

/-- The input does not run out where more bytes are left than decoding can ask for. -/
theorem remaining_le_of_isOutOfInput (hposition : cursor.position ≤ cursor.capacity)
    (hout : IsOutOfInput (decode settings cursor).outcome) :
    cursor.remaining ≤ settings.lengthLimit + 9 := by
  rw [outcome_eq_decodeAt settings hposition] at hout
  have hshort := mt not_isOutOfInput_of_le_length (not_not_intro hout)
  rw [List.length_drop] at hshort
  show cursor.region.length - cursor.position ≤ _
  omega

/-- The outcome in a region with more bytes at its end. -/
theorem outcome_append (settings : Settings) (hposition : cursor.position ≤ cursor.capacity)
    (extra : List UInt8) :
    (decode settings { cursor with region := cursor.region ++ extra }).outcome =
      decodeAt settings (cursor.region.drop cursor.position ++ extra) cursor.address := by
  rw [outcome_eq_decodeAt settings]
  · rw [← List.drop_append_of_le_length hposition]
    rfl
  · show cursor.position ≤ (cursor.region ++ extra).length
    rw [List.length_append]
    exact Nat.le_add_right_of_le hposition

/-- An instruction that stands in a region stands there with more input as well. If the input ran
out at some position, it ends before the one that was cut off there. -/
theorem lt_length_of_isOutOfInput {extra : List UInt8} {whole found : Instruction} {later : Nat}
    (hposition : cursor.position ≤ cursor.capacity)
    (hout : IsOutOfInput (decode settings cursor).outcome)
    (hwhole : (decode settings { cursor with region := cursor.region ++ extra }).outcome =
      .ok whole)
    (hfound : (decode settings { cursor with position := later }).outcome = .ok found) :
    (decode settings ⟨cursor.region ++ extra, later, cursor.base⟩).outcome = .ok found ∧
      later + found.length < cursor.position + whole.length := by
  have hend : later + found.length ≤ cursor.capacity := (Cursor.position_add_length_le hfound).1
  have hlater : later ≤ cursor.capacity := by omega
  refine ⟨?_, ?_⟩
  · have hsource := hfound
    rw [outcome_eq_decodeAt settings hlater] at hsource
    refine (@outcome_append { cursor with position := later } settings hlater extra).trans ?_
    rw [decodeAt_append, hsource]
    rw [hsource]
    exact not_isOutOfInput_ok found
  · rw [outcome_eq_decodeAt settings hposition] at hout
    rw [outcome_append settings hposition] at hwhole
    have hlength := length_lt_of_isOutOfInput hout hwhole
    rw [List.length_drop] at hlength
    show _ < cursor.position + whole.length
    have hcapacity : cursor.capacity = cursor.region.length := rfl
    omega

/-- Running out of input is final, for every region, only where at most one byte is left: for each
greater number of bytes at which the input can run out at all, there is a region in which an
instruction stands behind the position. The walks over a region end at such a position all the
same. What they miss lies within the instruction that is cut off there: whatever input completes
that one, the missed instruction stays where it is and ends before it. -/
theorem outOfInput_final_iff (settings : Settings) (base : UInt64) (remaining : Nat) :
    let limit := max 1 (min settings.maxLength 15)
    ((∀ region position failure, region.length = position + remaining →
        (decode settings ⟨region, position, base⟩).outcome = .error failure →
        failure.isResynchronizable = false →
        ∀ later found, position < later →
          (decode settings ⟨region, later, base⟩).outcome ≠ .ok found) ↔
      remaining ≤ 1 ∨ limit + 9 < remaining) ∧
    (∀ region position failure, region.length = position + remaining →
      (decode settings ⟨region, position, base⟩).outcome = .error failure →
      failure.isResynchronizable = false →
      (0 < remaining →
        decodeAll settings (region.drop position) (base + UInt64.ofNat position) =
          [.error failure]) ∧
      (∀ resync, ∃ events, CommandLine.run settings resync ⟨region, position, base⟩ =
        .ok { items := [], last := failure, events }) ∧
      ∀ extra whole later found,
        (decode settings ⟨region ++ extra, position, base⟩).outcome = .ok whole →
        (decode settings ⟨region, later, base⟩).outcome = .ok found →
        (decode settings ⟨region ++ extra, later, base⟩).outcome = .ok found ∧
          later + found.length < position + whole.length) := by
  intro limit
  have hout {region : List UInt8} {position : Nat} {failure : Failure}
      (h : (decode settings ⟨region, position, base⟩).outcome = .error failure)
      (hstop : failure.isResynchronizable = false) :
      IsOutOfInput (decode settings ⟨region, position, base⟩).outcome := by
    rw [h, isOutOfInput_error_iff, hstop]
  have hwithin {region : List UInt8} {position : Nat} (h : region.length = position + remaining) :
      position ≤ (Cursor.mk region position base).capacity := by
    show position ≤ region.length
    omega
  refine ⟨⟨?_, ?_⟩, ?_⟩
  · intro hfinal
    refine Classical.byContradiction fun hother => ?_
    obtain ⟨region, hlength, hends, hmissed⟩ := @exists_not_isFinal settings base remaining
      (by omega) (by show remaining ≤ limit + 9; omega)
    obtain ⟨failure, hfailure, -⟩ := id hends
    rw [hfailure, isOutOfInput_error_iff] at hends
    exact hmissed (hfinal region 0 failure (by omega) hfailure hends)
  · intro hremaining region position failure hlength h hstop
    have hleft : (Cursor.mk region position base).remaining = remaining := by
      show region.length - position = remaining
      omega
    have hle : remaining ≤ limit + 9 := by
      rw [← hleft]
      exact remaining_le_of_isOutOfInput (hwithin hlength) (hout h hstop)
    have hfew : (Cursor.mk region position base).remaining ≤ 1 := by omega
    exact isFinal_of_remaining_le hfew
  · intro region position failure hlength h hstop
    refine ⟨?_, ?_, ?_⟩
    · intro hpos
      have hends := hout h hstop
      rw [outcome_eq_decodeAt settings (hwithin hlength)] at h hends
      have hne : region.drop position ≠ [] := by
        rw [ne_eq, List.drop_eq_nil_iff]
        omega
      exact (decodeAll_of_isOutOfInput hne hends).trans (congrArg (fun entry => [entry]) h)
    · intro resync
      exact CommandLine.run_of_stop resync (hwithin hlength) h hstop
    · intro extra whole later found hwhole hfound
      exact lt_length_of_isOutOfInput (hwithin hlength) (hout h hstop) hwhole hfound

/-- The operand of a call that is cut off is an instruction of its own. -/
example :
    IsOutOfInput (decode {} ⟨[0xE8, 0x90], 0, 0x1000⟩).outcome ∧
      (decode {} ⟨[0xE8, 0x90], 1, 0x1000⟩).outcome.toOption.map (·.length) = some 1 := by
  decide

end LongMode
