import LongMode.CommandLine.Run
import LongMode.Proofs.BlockEnd
import Mathlib.Data.List.TakeWhile

/-!
# Runs over a file and blocks

A run over a file and `decodeAll` are two loops over the same bytes: one asks whether it is at
the end before each decode call, the other is told by the call that fails there. `Leads`
describes what a run does step by step, and `run_leads` says that a run always gets to a
failure that ends it, with its steps counted and its skips reported. Along these steps the entries of the block are used
up one by one (`Leads.entriesToEnd_eq`), so the steps of a run are those entries, up to the first
one that ends it: `Leads.outcomes_eq` says which ones these are, with and without
resynchronisation.
-/

namespace LongMode

/-- Whether an outcome is a failure that one byte is passed over for. -/
def Outcome.isSkip : Outcome → Bool
  | .ok _ => false
  | .error failure => failure.isResynchronizable

/-- The failure for which an event says that a byte is passed over. -/
def Event.skipped? : Event → Option Failure
  | .skipping failure => some failure
  | _ => none

/-- A decode call passes nothing over. -/
theorem filterMap_skipped?_events_decode (settings : Settings) (cursor : Cursor) :
    (decode settings cursor).events.filterMap Event.skipped? = [] := by
  obtain ⟨-, hdecode⟩ | ⟨fault, -, -, hdecode⟩ | ⟨instruction, after, -, -, hdecode⟩ :=
    decode_cases settings cursor
  · rw [hdecode]
    rfl
  · rw [hdecode]
    rfl
  · rw [hdecode]
    rfl

/-- The events that say so are shown at every level. -/
theorem Event.filterMap_skipped?_upTo (level : Level) (events : List Event) :
    (upTo level events).filterMap skipped? = events.filterMap skipped? := by
  rw [upTo, List.filterMap_filter]
  refine List.filterMap_congr ?_
  intro event _
  cases event with
  | skipping failure => exact if_pos (decide_eq_true (Nat.zero_le level.rank))
  | decoded instruction | failed failure | fileRead size path => exact ite_self none

namespace CommandLine

/-- The outcome of the decode call that a step was made for. -/
def Item.outcome : Item → Outcome
  | .decoded instruction => .ok instruction
  | .skipped failure => .error failure

/-- The number of bytes of some instructions. -/
def totalLength : List Instruction → Nat
  | [] => 0
  | instruction :: instructions => instruction.length + totalLength instructions

/-- Whether a run goes on after an outcome. -/
def goesOn (resync : Bool) (outcome : Outcome) : Bool :=
  outcome.isOk || (resync && outcome.isSkip)

/-- The steps of a run: `Leads settings resync cursor items stop` says that the run makes the
steps `items` and gets from `cursor` to `stop` by them. -/
inductive Leads (settings : Settings) (resync : Bool) : Cursor → List Item → Cursor → Prop where
  | here (cursor : Cursor) : Leads settings resync cursor [] cursor
  | decoded {cursor stop : Cursor} {instruction : Instruction} {items : List Item}
      (houtcome : (decode settings cursor).outcome = .ok instruction)
      (htail : Leads settings resync (decode settings cursor).cursor items stop) :
      Leads settings resync cursor (.decoded instruction :: items) stop
  | skipped {cursor next stop : Cursor} {failure : Failure} {items : List Item}
      (houtcome : (decode settings cursor).outcome = .error failure)
      (hresume : (resync && failure.isResynchronizable) = true)
      (hskip : (decode settings cursor).cursor.advance 1 = .ok next)
      (htail : Leads settings resync next items stop) :
      Leads settings resync cursor (.skipped failure :: items) stop

variable {settings : Settings} {resync : Bool} {cursor stop : Cursor} {items : List Item}

/-! ## What a run does -/

namespace Run

variable {rest : Run} {instruction : Instruction} {failure : Failure} {events : List Event}

theorem tally_after (item : Item) : (rest.after item events).tally = rest.tally :=
  rfl

theorem events_after (item : Item) : (rest.after item events).events = events ++ rest.events :=
  rfl

theorem instructions_after_decoded :
    (rest.after (.decoded instruction) events).instructions = instruction :: rest.instructions :=
  rfl

theorem skips_after_decoded : (rest.after (.decoded instruction) events).skips = rest.skips :=
  rfl

theorem instructions_after_skipped :
    (rest.after (.skipped failure) events).instructions = rest.instructions :=
  rfl

theorem skips_after_skipped :
    (rest.after (.skipped failure) events).skips = failure :: rest.skips :=
  rfl

end Run

/-- The byte that a run passes over is there. -/
theorem advance_of_resume {failure : Failure} (hposition : cursor.position ≤ cursor.capacity)
    (houtcome : (decode settings cursor).outcome = .error failure)
    (hresume : (resync && failure.isResynchronizable) = true) :
    (decode settings cursor).cursor.advance 1 = .ok (cursor.forward 1) ∧
      (cursor.forward 1).position ≤ (cursor.forward 1).capacity := by
  have hresume := (Bool.and_eq_true_iff.mp hresume).2
  have hlt := Cursor.position_lt_of_isResynchronizable hposition houtcome hresume
  exact ⟨advance_of_outcome_eq_error hlt houtcome, hlt⟩

/-- A run makes its steps up to a failure that ends it, and never fails itself. It counts its
steps on top of what was counted before, and reports those that passed a byte over. -/
theorem run_leads (settings : Settings) (resync : Bool) (cursor : Cursor) (tally : Tally)
    (hposition : cursor.position ≤ cursor.capacity) :
    ∃ result stop, run settings resync cursor tally = .ok result ∧
      Leads settings resync cursor result.items stop ∧
      result.tally = { decoded := tally.decoded + result.instructions.length
                       skipped := tally.skipped + result.skips.length } ∧
      result.events.filterMap Event.skipped? = result.skips ∧
      (decode settings stop).outcome = .error result.last ∧
      (resync && result.last.isResynchronizable) = false := by
  fun_induction run settings resync cursor tally with
  | case1 cursor tally step instruction houtcome counted ih =>
      obtain ⟨rest, stop, hrest, hleads, htally, hevents, hlast⟩ :=
        ih (Cursor.position_decode_le settings hposition)
      refine ⟨rest.after (.decoded instruction) step.events, stop, ?_, ?_, ?_, ?_, hlast⟩
      · rw [hrest]
        rfl
      · exact .decoded houtcome hleads
      · rw [Run.tally_after, htally, Run.instructions_after_decoded, Run.skips_after_decoded,
          List.length_cons, Nat.add_assoc, Nat.add_comm 1]
      · rw [Run.events_after, List.filterMap_append, filterMap_skipped?_events_decode, hevents,
          Run.skips_after_decoded, List.nil_append]
  | case2 cursor tally step failure houtcome hresume next hskip counted ih =>
      obtain ⟨hadvance, hnext⟩ := advance_of_resume hposition houtcome hresume
      obtain rfl : cursor.forward 1 = next := Except.ok.inj (hadvance.symm.trans hskip)
      obtain ⟨rest, stop, hrest, hleads, htally, hevents, hlast⟩ := ih hnext
      refine ⟨rest.after (.skipped failure) (step.events ++ [.skipping failure]), stop, ?_, ?_, ?_,
        ?_, hlast⟩
      · rw [hrest]
        rfl
      · exact .skipped houtcome hresume hskip hleads
      · rw [Run.tally_after, htally, Run.instructions_after_skipped, Run.skips_after_skipped,
          List.length_cons, Nat.add_assoc, Nat.add_comm 1]
      · rw [Run.events_after, List.filterMap_append, List.filterMap_append,
          filterMap_skipped?_events_decode, hevents, Run.skips_after_skipped]
        rfl
  | case3 cursor tally step failure houtcome hresume bounds hskip =>
      obtain ⟨hadvance, -⟩ := advance_of_resume hposition houtcome hresume
      cases hadvance.symm.trans hskip
  | case4 cursor tally step failure houtcome hresume =>
      exact ⟨_, cursor, rfl, .here cursor, rfl, filterMap_skipped?_events_decode settings cursor,
        houtcome, by simpa using hresume⟩

namespace Leads

/-- The steps of a run stay within the region. -/
theorem position_le (h : Leads settings resync cursor items stop)
    (hposition : cursor.position ≤ cursor.capacity) : stop.position ≤ stop.capacity := by
  induction h with
  | here cursor => exact hposition
  | decoded houtcome htail ih => exact ih (Cursor.position_decode_le settings hposition)
  | skipped houtcome hresume hskip htail ih =>
      obtain ⟨hadvance, hnext⟩ := advance_of_resume hposition houtcome hresume
      cases hadvance.symm.trans hskip
      exact ih hnext

/-- The steps of a run cover the bytes of the decoded instructions and one byte for each
failure that was passed over. -/
theorem eq_forward (h : Leads settings resync cursor items stop) :
    stop = cursor.forward (totalLength (items.filterMap Item.instruction?) +
      (items.filterMap Item.skipped?).length) := by
  induction h with
  | here cursor => rfl
  | decoded houtcome htail ih =>
      rw [ih, cursor_of_outcome_eq_ok houtcome]
      simp only [Cursor.forward, List.filterMap_cons, Item.instruction?, Item.skipped?,
        totalLength, Nat.add_assoc]
  | skipped houtcome hresume hskip htail ih =>
      obtain ⟨-, rfl⟩ := Cursor.advance_eq_ok_iff.mp hskip
      rw [ih, (cursor_of_outcome_eq_error houtcome).1]
      simp only [Cursor.forward, List.filterMap_cons, Item.instruction?, Item.skipped?,
        List.length_cons, Nat.add_assoc, Nat.add_comm 1]

/-- The steps of a run are the first entries from where it starts, and the entries from
where it stops follow them. -/
theorem entriesToEnd_eq (h : Leads settings resync cursor items stop)
    (hposition : cursor.position ≤ cursor.capacity) :
    cursor.entriesToEnd settings = items.map Item.outcome ++ stop.entriesToEnd settings := by
  induction h with
  | here cursor => rfl
  | decoded houtcome htail ih =>
      rw [Cursor.entriesToEnd_of_ok hposition houtcome,
        ih (Cursor.position_decode_le settings hposition)]
      rfl
  | skipped houtcome hresume hskip htail ih =>
      obtain ⟨hadvance, hnext⟩ := advance_of_resume hposition houtcome hresume
      cases hadvance.symm.trans hskip
      rw [Cursor.entriesToEnd_of_skip hposition houtcome (Bool.and_eq_true_iff.mp hresume).2,
        ih hnext]
      rfl

/-- A run goes on after each of its steps. -/
theorem goesOn_of_mem (h : Leads settings resync cursor items stop) :
    ∀ item ∈ items, goesOn resync item.outcome = true := by
  induction h with
  | here cursor => simp
  | decoded houtcome htail ih => exact List.forall_mem_cons.mpr ⟨rfl, ih⟩
  | skipped houtcome hresume hskip htail ih => exact List.forall_mem_cons.mpr ⟨hresume, ih⟩

end Leads

/-! ## The entries of the block -/

/-- A block ends at an entry after which no run goes on. -/
theorem isOutOfInput_iff_goesOn (entry : Outcome) :
    IsOutOfInput entry ↔ goesOn true entry = false := by
  cases entry with
  | ok instruction => exact iff_of_false (not_isOutOfInput_ok instruction) Bool.noConfusion
  | error failure =>
      rw [isOutOfInput_error_iff]
      rfl

/-- No run goes on behind the last byte of a block. -/
theorem goesOn_endOfBlock (resync : Bool) (bytes : List UInt8) (address : UInt64) :
    goesOn resync (endOfBlock bytes address) = false := by
  cases resync <;> rfl

/-- The entries after which a run with resynchronisation goes on all stand in front of the
one that ends it. -/
theorem filter_goesOn_decodeAll (settings : Settings) (bytes : List UInt8) (address : UInt64) :
    (decodeAll settings bytes address).filter (goesOn true) =
      (decodeAll settings bytes address).takeWhile (goesOn true) := by
  have hpass {entries : List Outcome} (h : ∀ entry ∈ entries, ¬ IsOutOfInput entry) :
      ∀ entry ∈ entries, goesOn true entry = true := by
    intro entry hentry
    have hin := h entry hentry
    rwa [isOutOfInput_iff_goesOn, Bool.not_eq_false] at hin
  obtain ⟨hnone, -⟩ | ⟨before, last, heq, hlast, hnone, -⟩ :=
    (tiles_decodeAll settings bytes address).ends
  · rw [List.filter_eq_self.mpr (hpass hnone), List.takeWhile_eq_self_iff.mpr (hpass hnone)]
  · rw [isOutOfInput_iff_goesOn] at hlast
    rw [heq, List.filter_append, List.filter_eq_self.mpr (hpass hnone),
      List.takeWhile_append_of_pos (hpass hnone)]
    simp [hlast]

/-- The steps of a run are the entries of the block up to the first one that ends it. -/
theorem Leads.items_eq {data : List UInt8} {base : UInt64} {last : Failure}
    (h : Leads settings resync (.ofRegion data base) items stop)
    (houtcome : (decode settings stop).outcome = .error last)
    (hlast : (resync && last.isResynchronizable) = false) :
    items.map Item.outcome = (decodeAll settings data base).takeWhile (goesOn resync) ∧
      .error last = ((decodeAll settings data base).find? fun entry => !goesOn resync entry).getD
        (endOfBlock data base) := by
  have hhead := Cursor.head?_entriesToEnd settings (h.position_le (Nat.zero_le _))
  rw [houtcome] at hhead
  obtain ⟨rest, hrest⟩ := List.head?_eq_some_iff.mp hhead
  -- Entries of the block may follow the one that ends the run: without resynchronisation it
  -- ends at the first failure.
  have hwhole : decodeToEnd settings data base = items.map Item.outcome ++ .error last :: rest := by
    rw [← hrest, ← h.entriesToEnd_eq (Nat.zero_le _), Cursor.entriesToEnd, Cursor.address_ofRegion]
    rfl
  have hsteps : ∀ entry ∈ items.map Item.outcome, goesOn resync entry = true :=
    List.forall_mem_map.mpr h.goesOn_of_mem
  have hend := goesOn_endOfBlock resync data base
  have hlast : goesOn resync (.error last) = false := hlast
  refine ⟨?_, ?_⟩
  · rw [← takeWhile_decodeToEnd hend, hwhole, List.takeWhile_append_of_pos hsteps,
      List.takeWhile_cons_of_neg (by simp [hlast]), List.append_nil]
  · rw [← getD_find?_decodeToEnd (by simp [hend]), hwhole, List.find?_append,
      List.find?_eq_none.mpr (by simpa using hsteps), Option.none_or,
      List.find?_cons_of_pos (by simp [hlast])]
    rfl

/-! ## What a run makes of a block -/

/-- The entries of a block that a run makes its steps for: with resynchronisation all those that
are instructions or failures to pass over, without it the instructions in front of the first
failure. -/
def stepsOf (resync : Bool) (entries : List Outcome) : List Outcome :=
  if resync then entries.filter fun entry => entry.isOk || entry.isSkip
  else entries.takeWhile fun entry => entry.isOk

/-- The entry of a block that ends a run: with resynchronisation the one that ran out of input,
without it the first failure. A block may have none, and then it is `atEnd`, the outcome of a
call behind the last byte. -/
def endOf (resync : Bool) (entries : List Outcome) (atEnd : Outcome) : Outcome :=
  if resync then (entries.find? fun entry => IsOutOfInput entry).getD atEnd
  else (entries.find? fun entry => !entry.isOk).getD atEnd

namespace Leads

variable {data : List UInt8} {base : UInt64} {last : Failure}

/-- The steps of a run and what ends it, in terms of the entries of the block. -/
theorem outcomes_eq (h : Leads settings resync (.ofRegion data base) items stop)
    (houtcome : (decode settings stop).outcome = .error last)
    (hlast : (resync && last.isResynchronizable) = false) :
    items.map Item.outcome = stepsOf resync (decodeAll settings data base) ∧
      .error last = endOf resync (decodeAll settings data base) (endOfBlock data base) := by
  obtain ⟨hitems, hfinal⟩ := h.items_eq houtcome hlast
  cases resync with
  | false =>
      have hgoesOn : goesOn false = fun entry => entry.isOk := by
        funext entry
        exact Bool.or_false _
      rw [hgoesOn] at hitems hfinal
      exact ⟨hitems, hfinal⟩
  | true =>
      have hends : (fun entry => !goesOn true entry) =
          fun entry => decide (IsOutOfInput entry) := by
        funext entry
        simp [isOutOfInput_iff_goesOn]
      rw [← filter_goesOn_decodeAll] at hitems
      rw [hends] at hfinal
      exact ⟨hitems, hfinal⟩

/-- Without resynchronisation no byte is passed over. -/
theorem skips_eq_nil (h : Leads settings false cursor items stop) :
    items.filterMap Item.skipped? = [] := by
  induction h with
  | here cursor => rfl
  | decoded houtcome htail ih => exact ih
  | skipped houtcome hresume hskip htail ih => cases hresume

end Leads

/-- A run that is not to go on past a failure ends with the code of one that ran out of input. -/
theorem code_of_isResynchronizable {failure : Failure} (h : failure.isResynchronizable = false) :
    failure.status.code = 1 ∨ failure.status.code = 4 := by
  obtain ⟨address, cause⟩ := failure
  cases cause with
  | endOfInput => exact .inl rfl
  | truncated needed available => exact .inr rfl
  | malformed reason => cases h
  | prefixConflict byte => cases h

/-- The lines shown for a file are those of the run, behind the dump that was asked for. -/
theorem respond_of_run {options : Options} {data : List UInt8} {result : Run}
    (h : run options.settings options.resync (.ofRegion data options.base) = .ok result) :
    respond options (some data) = .ok {
      lines :=
        (if options.dump then HexDump.lines options.base data else []) ++
          (if options.json then result.jsonLines options.base data
            else result.textLines options.resync)
      events := Event.upTo options.level (.fileRead data.length options.file :: result.events) } := by
  unfold respond
  dsimp only
  rw [h]
  rfl

end CommandLine

end LongMode
