import LongMode.Proofs.Extension
import LongMode.Proofs.Faults

/-!
# What a truncation report promises

A reading that runs out of bounds names the bytes it asked for. They lie behind the end of
the region, and as long as they do, more bytes change nothing in what it asks for:
`Built.keepsDemand` shows it of every reader that is put together from elementary ones. The
number of bytes in a truncation report is counted up to the last byte asked for, so
`decodeAt_truncation` can say that no smaller number is enough. Whether the report is made
at all depends on the settings, and they decide nothing else.
-/

namespace LongMode

/-- The refusal of the same bytes in a region with more bytes at its end. -/
def OutOfBounds.extend (bounds : OutOfBounds) (extra : List UInt8) : OutOfBounds :=
  { bounds with capacity := bounds.capacity + extra.length }

/-- Where the bytes end that a refused read asked for. -/
def OutOfBounds.stop (bounds : OutOfBounds) : Nat :=
  bounds.offset + bounds.needed

namespace Lookahead

/-- Where the bytes of a lookahead end. -/
def stop (input : Lookahead) : Nat :=
  input.start + input.consumed + input.rest.length

/-- Reading does not move the end of the bytes. -/
theorem Reads.stop_eq {input after : Lookahead} {bytes : List UInt8}
    (h : input.Reads bytes after) : after.stop = input.stop := by
  unfold stop
  rw [h.start_eq, h.consumed_eq, h.rest_eq, List.length_append]
  omega

end Lookahead

namespace Reader

variable {α β : Type}

/-- Every reader that is put together from elementary ones reads bytes from the front and
leaves the others. -/
theorem Built.exists_reads {reader : Reader α} (h : Built reader) :
    ∀ {input after : Lookahead} {value : α}, reader input = .ok (value, after) →
      ∃ bytes, input.Reads bytes after := by
  induction h with
  | pure value =>
      intro input after result hread
      exact ⟨[], Lookahead.reads_nil_iff.mpr (pure_eq_ok_iff.mp hread).2⟩
  | fail fault _ =>
      intro input after result hread
      exact absurd hread fail_ne_ok
  | consumed =>
      intro input after count hread
      exact ⟨[], Lookahead.reads_nil_iff.mpr (consumed_eq_ok_iff.mp hread).2⟩
  | peek =>
      intro input after byte hread
      exact ⟨[], Lookahead.reads_nil_iff.mpr (peek_eq_ok_iff.mp hread).2⟩
  | byte =>
      intro input after byte hread
      exact ⟨[byte], byte_eq_ok_iff.mp hread⟩
  | skipByte =>
      intro input after result hread
      obtain ⟨byte, hreads⟩ := skipByte_eq_ok_iff.mp hread
      exact ⟨[byte], hreads⟩
  | littleEndian count hcount =>
      intro input after number hread
      exact ⟨_, ((littleEndian_eq_ok_iff hcount).mp hread).2⟩
  | bind first second _ _ hfirst hsecond =>
      intro input after result hread
      obtain ⟨value, between, hvalue, hresult⟩ := bind_eq_ok_iff.mp hread
      obtain ⟨front, hfront⟩ := hfirst hvalue
      obtain ⟨back, hback⟩ := hsecond value hresult
      exact ⟨front ++ back, hfront.append hback⟩

/-- `reader.KeepsDemand` says that a reader which runs out of bounds asked for bytes behind
the end, and that it asks for the same bytes on every longer input that ends before them. -/
def KeepsDemand (reader : Reader α) : Prop :=
  ∀ input bounds, reader input = .error (.outOfBounds bounds) →
    input.stop < bounds.stop ∧
      ∀ extra, (input.extend extra).stop < bounds.stop →
        reader (input.extend extra) = .error (.outOfBounds (bounds.extend extra))

/-- A reader that asks for a fixed number of bytes asks for them again. -/
theorem Asks.keepsDemand {reader : Reader α} {count : Nat} (h : Asks reader count) :
    KeepsDemand reader := by
  intro input bounds hread
  obtain ⟨hshort, hbounds⟩ := (h input _).mp hread
  obtain rfl : bounds = input.outOfBounds count := by simpa using hbounds
  have hstop : (input.outOfBounds count).stop = input.start + input.consumed + count := rfl
  refine ⟨?_, ?_⟩
  · rw [hstop, Lookahead.stop]
    omega
  · intro extra hextra
    refine (h _ _).mpr ⟨?_, rfl⟩
    rw [hstop] at hextra
    have hextra : input.start + input.consumed + (input.extend extra).rest.length <
        input.start + input.consumed + count := hextra
    omega

/-- A sequence asks again for what it asked for when both parts do. -/
theorem KeepsDemand.bind {first : Reader α} {second : α → Reader β} (hbuilt : Built first)
    (hfirst : KeepsDemand first) (hsecond : ∀ value, KeepsDemand (second value)) :
    KeepsDemand (first >>= second) := by
  intro input bounds hread
  obtain hread | ⟨value, between, hvalue, hread⟩ := bind_eq_error_iff.mp hread
  · obtain ⟨hbehind, hagain⟩ := hfirst input bounds hread
    exact ⟨hbehind, fun extra hextra => bind_eq_error_iff.mpr (.inl (hagain extra hextra))⟩
  · -- The first part ends within bounds, so it does the same on the longer input.
    obtain ⟨bytes, hreads⟩ := hbuilt.exists_reads hvalue
    obtain ⟨hbehind, hagain⟩ := hsecond value between bounds hread
    rw [hreads.stop_eq] at hbehind
    refine ⟨hbehind, ?_⟩
    intro extra hextra
    obtain ⟨other, hother⟩ | hsame := hbuilt.keepsRun input extra
    · rw [hvalue] at hother
      cases hother
    · rw [hvalue] at hsame
      rw [← (hreads.extend extra).stop_eq] at hextra
      exact bind_eq_error_iff.mpr (.inr ⟨value, between.extend extra, hsame, hagain extra hextra⟩)

/-- Every reader that is put together from elementary ones asks again for what it asked
for. -/
theorem Built.keepsDemand {reader : Reader α} (h : Built reader) : KeepsDemand reader := by
  induction h with
  | pure value => exact fun _ _ hread => nomatch hread
  | fail fault hdecisive =>
      intro input bounds hread
      exact absurd (Except.error.inj hread) (hdecisive bounds)
  | consumed => exact fun _ _ hread => nomatch hread
  | peek => exact asks_peek.keepsDemand
  | byte => exact asks_byte.keepsDemand
  | skipByte => exact asks_skipByte.keepsDemand
  | littleEndian count _ => exact (asks_littleEndian count).keepsDemand
  | bind first second hbuilt _ hfirst hsecond => exact hfirst.bind hbuilt hsecond

end Reader

/-! ## Reports of decode calls -/

variable {settings : Settings} {source : List UInt8} {address : UInt64}

/-- The bytes at the start of a byte string end with it. -/
theorem Cursor.stop_lookahead_ofRegion (source : List UInt8) (address : UInt64) :
    (Cursor.ofRegion source address).lookahead.stop = source.length := by
  simp [Lookahead.stop, Cursor.lookahead, Cursor.ofRegion]

/-- Running out of bounds at the start of a byte string is reported as the settings say. A
report counts the bytes that are there and those up to the last one asked for. -/
theorem Fault.toFailure_outOfBounds (settings : Settings) (source : List UInt8)
    (address : UInt64) (bounds : OutOfBounds) :
    (Fault.outOfBounds bounds).toFailure settings (.ofRegion source address) =
      ⟨address, if settings.reportTruncation then .truncated bounds.stop source.length
        else .endOfInput⟩ := by
  unfold Fault.toFailure
  rw [Cursor.address_ofRegion]
  rfl

/-- A truncation report is made where the settings ask for it and a reading of some bytes
runs out of bounds. -/
theorem decodeAt_eq_truncated_iff {place : UInt64} {needed available : Nat} :
    decodeAt settings source address = .error ⟨place, .truncated needed available⟩ ↔
      settings.reportTruncation = true ∧ source ≠ [] ∧ place = address ∧
        available = source.length ∧
        ∃ bounds, needed = bounds.stop ∧
          readInstruction settings address (Cursor.ofRegion source address).lookahead =
            .error (.outOfBounds bounds) := by
  by_cases hempty : source = []
  · subst hempty
    rw [decodeAt_nil]
    simp
  · rw [decodeAt_of_ne_nil settings hempty]
    generalize readInstruction settings address _ = result
    cases result with
    | ok result => simp
    | error fault =>
        cases fault with
        | outOfBounds bounds =>
            dsimp only
            rw [Fault.toFailure_outOfBounds]
            cases settings.reportTruncation with
            | false => simp
            | true =>
                constructor
                · intro h
                  cases h
                  exact ⟨rfl, hempty, rfl, rfl, bounds, rfl, rfl⟩
                · rintro ⟨-, -, rfl, rfl, other, rfl, hother⟩
                  cases hother
                  rfl
        | malformed reason => simp [Fault.toFailure]
        | prefixConflict byte => simp [Fault.toFailure]

/-- A report is repeated, with the bytes that are there counted anew, as long as the bytes
asked for are not all there. -/
theorem decodeAt_append_eq_truncated {place : UInt64} {needed available : Nat}
    (h : decodeAt settings source address = .error ⟨place, .truncated needed available⟩)
    {extra : List UInt8} (hextra : (source ++ extra).length < needed) :
    decodeAt settings (source ++ extra) address =
      .error ⟨place, .truncated needed (source ++ extra).length⟩ := by
  obtain ⟨hreport, hne, hplace, -, bounds, rfl, hread⟩ := decodeAt_eq_truncated_iff.mp h
  have hagain := ((built_readInstruction settings address).keepsDemand _ bounds hread).2 extra
  rw [← Cursor.lookahead_ofRegion_append, Cursor.stop_lookahead_ofRegion] at hagain
  exact decodeAt_eq_truncated_iff.mpr ⟨hreport, List.append_ne_nil_of_left_ne_nil hne extra,
    hplace, rfl, bounds.extend extra, rfl, hagain hextra⟩

/-- The bytes asked for are not all there. -/
theorem length_lt_of_decodeAt_eq_truncated {place : UInt64} {needed available : Nat}
    (h : decodeAt settings source address = .error ⟨place, .truncated needed available⟩) :
    source.length < needed := by
  obtain ⟨-, -, -, -, bounds, rfl, hread⟩ := decodeAt_eq_truncated_iff.mp h
  have hbehind := ((built_readInstruction settings address).keepsDemand _ bounds hread).1
  rwa [Cursor.stop_lookahead_ofRegion] at hbehind

/-- An instruction that starts with the bytes of a report has at least as many bytes as the
report asks for. -/
theorem needed_le_of_decodeAt_append {place : UInt64} {needed available : Nat}
    (h : decodeAt settings source address = .error ⟨place, .truncated needed available⟩)
    {extra : List UInt8} {instruction : Instruction}
    (hdecoded : decodeAt settings (source ++ extra) address = .ok instruction) :
    needed ≤ instruction.length := by
  refine Nat.le_of_not_lt fun hshort => ?_
  have hsource := length_lt_of_decodeAt_eq_truncated h
  -- A string that has the bytes of the report and those of the instruction, and no others,
  -- would be decoded although it ends before the bytes asked for.
  let count := max source.length instruction.length
  have hdecoded := decodeAt_take_of_length_le hdecoded (Nat.le_max_right source.length _)
  have htake : (source ++ extra).take count = source ++ extra.take (count - source.length) := by
    rw [List.take_append, List.take_of_length_le (Nat.le_max_left _ _)]
  have hcount : (source ++ extra.take (count - source.length)).length < needed := by
    rw [← htake, List.length_take]
    omega
  rw [htake, decodeAt_append_eq_truncated h hcount] at hdecoded
  cases hdecoded

/-- Asking for reports turns the end of the input into a truncation where there are bytes,
and leaves every outcome alone that is not a matter of running out of input. -/
theorem decodeAt_withReportTruncation (settings : Settings) (hne : source ≠ [])
    (address : UInt64) :
    (∃ needed available,
      decodeAt (settings.withReportTruncation false) source address =
        .error ⟨address, .endOfInput⟩ ∧
      decodeAt (settings.withReportTruncation true) source address =
        .error ⟨address, .truncated needed available⟩) ∨
    (¬ IsOutOfInput (decodeAt (settings.withReportTruncation false) source address) ∧
      decodeAt (settings.withReportTruncation true) source address =
        decodeAt (settings.withReportTruncation false) source address) := by
  have hread (report : Bool) : readInstruction (settings.withReportTruncation report) address =
      readInstruction settings address := rfl
  rw [decodeAt_of_ne_nil _ hne, decodeAt_of_ne_nil _ hne, hread, hread]
  cases readInstruction settings address (Cursor.ofRegion source address).lookahead with
  | ok result => exact .inr ⟨not_isOutOfInput_ok _, rfl⟩
  | error fault =>
      cases fault with
      | outOfBounds bounds =>
          refine .inl ⟨bounds.stop, source.length, ?_, ?_⟩
          · exact congrArg Except.error (Fault.toFailure_outOfBounds _ source address bounds)
          · exact congrArg Except.error (Fault.toFailure_outOfBounds _ source address bounds)
      | malformed reason => exact .inr ⟨by simp [IsOutOfInput, Fault.toFailure], rfl⟩
      | prefixConflict byte => exact .inr ⟨by simp [IsOutOfInput, Fault.toFailure], rfl⟩

/-- Truncation reports are accurate, and asking for them changes nothing but the label. Where
no report is asked for none is made. Where one is, every string that is not empty and whose
outcome was the end of the input is reported as truncated at the same address, and all other
outcomes stay as they are. A report counts the bytes that are there and asks for more. It is
repeated for every longer string that has fewer bytes than it asks for, and no instruction
that starts with the bytes at hand has fewer. -/
theorem decodeAt_truncation (settings : Settings) (source : List UInt8) (address : UInt64) :
    (source = [] → ∀ report, decodeAt (settings.withReportTruncation report) source address =
      .error ⟨address, .endOfInput⟩) ∧
    (source ≠ [] → ∀ failure,
      decodeAt (settings.withReportTruncation false) source address = .error failure →
      failure.cause = .endOfInput →
      ∃ needed available, decodeAt (settings.withReportTruncation true) source address =
        .error { failure with cause := .truncated needed available }) ∧
    ((∀ failure, decodeAt (settings.withReportTruncation false) source address =
        .error failure → failure.cause ≠ .endOfInput) →
      decodeAt (settings.withReportTruncation true) source address =
        decodeAt (settings.withReportTruncation false) source address) ∧
    (∀ failure needed available,
      decodeAt (settings.withReportTruncation false) source address = .error failure →
      failure.cause ≠ .truncated needed available) ∧
    (∀ failure needed available, decodeAt settings source address = .error failure →
      failure.cause = .truncated needed available →
      available = source.length ∧ available < needed ∧
      (∀ extra, (source ++ extra).length < needed →
        decodeAt settings (source ++ extra) address =
          .error { failure with cause := .truncated needed (source ++ extra).length }) ∧
      (∀ extra instruction, decodeAt settings (source ++ extra) address = .ok instruction →
        needed ≤ instruction.length ∧ instruction.length ≤ (source ++ extra).length)) := by
  refine ⟨?_, ?_, ?_, ?_, ?_⟩
  · rintro rfl report
    exact decodeAt_nil _ address
  · intro hne failure h hcause
    obtain ⟨needed, available, hoff, hon⟩ | ⟨hin, -⟩ :=
      decodeAt_withReportTruncation settings hne address
    · obtain rfl := Except.error.inj (hoff.symm.trans h)
      exact ⟨needed, available, hon⟩
    · exact absurd ⟨failure, h, .inl hcause⟩ hin
  · intro hnone
    by_cases hempty : source = []
    · subst hempty
      rw [decodeAt_nil, decodeAt_nil]
    · obtain ⟨needed, available, hoff, -⟩ | ⟨-, hsame⟩ :=
        decodeAt_withReportTruncation settings hempty address
      · exact absurd rfl (hnone _ hoff)
      · exact hsame
  · rintro ⟨place, cause⟩ needed available h rfl
    obtain ⟨hreport, -⟩ := decodeAt_eq_truncated_iff.mp h
    cases hreport
  · rintro ⟨place, cause⟩ needed available h rfl
    obtain ⟨-, -, -, rfl, -⟩ := decodeAt_eq_truncated_iff.mp h
    refine ⟨rfl, length_lt_of_decodeAt_eq_truncated h, ?_, ?_⟩
    · intro extra hextra
      exact decodeAt_append_eq_truncated h hextra
    · intro extra instruction hdecoded
      exact ⟨needed_le_of_decodeAt_append h hdecoded, length_le_of_decodeAt hdecoded⟩

/-- A call of which two bytes are there asks for five, also when a third arrives, and has
five. -/
theorem decodeAt_truncation_cut_call :
    decodeAt { reportTruncation := true } [0xE8, 0x01] 0x1000 =
      .error ⟨0x1000, .truncated 5 2⟩ ∧
    decodeAt { reportTruncation := true } [0xE8, 0x01, 0x00] 0x1000 =
      .error ⟨0x1000, .truncated 5 3⟩ ∧
    ∃ instruction,
      decodeAt { reportTruncation := true } [0xE8, 0x01, 0x00, 0x00, 0x00, 0x90] 0x1000 =
        .ok instruction ∧
      5 ≤ instruction.length := by
  have hreport : decodeAt { reportTruncation := true } [0xE8, 0x01] 0x1000 =
      .error ⟨0x1000, .truncated 5 2⟩ := rfl
  obtain ⟨-, -, -, -, haccurate⟩ :=
    decodeAt_truncation { reportTruncation := true } [0xE8, 0x01] 0x1000
  obtain ⟨-, -, hagain, hneeded⟩ := haccurate _ 5 2 hreport rfl
  refine ⟨hreport, hagain [0x00] (by decide), _, rfl, ?_⟩
  exact (hneeded [0x00, 0x00, 0x00, 0x90] _ rfl).1

end LongMode
