import LongMode.Proofs.Reports

/-!
# Reports and blocks

What is shown for a file can be told from the entries of `decodeAll` alone. The steps of the run
are the entries up to the one that ends it (`Leads.outcomes_eq`), and a reader of the report
finds these steps, their numbers and that entry in it. `respond_agrees_decodeAll` puts the two
together for both kinds of reports.
-/

namespace LongMode

/-- The failure of an outcome. -/
def Outcome.failure? : Outcome → Option Failure
  | .ok _ => none
  | .error failure => some failure

namespace CommandLine

/-- The instructions of a run are those of its steps. -/
theorem filterMap_instruction? (items : List Item) :
    items.filterMap Item.instruction? =
      (items.map Item.outcome).filterMap Except.toOption := by
  rw [List.filterMap_map]
  refine List.filterMap_congr ?_
  intro item _
  cases item with
  | decoded instruction => rfl
  | skipped failure => rfl

/-- The failures that a run passed a byte over for are those of its steps. -/
theorem filterMap_skipped? (items : List Item) :
    items.filterMap Item.skipped? = (items.map Item.outcome).filterMap Outcome.failure? := by
  rw [List.filterMap_map]
  refine List.filterMap_congr ?_
  intro item _
  cases item with
  | decoded instruction => rfl
  | skipped failure => rfl

/-- A run over a file agrees with decoding it as a block. Once the file is read the run ends
and never fails. With resynchronisation its steps are, in order, the entries of the block that
are instructions or failures to pass over, and it ends with the entry that ran out of input, or
else with that of the call behind the last byte; without it the run has the instructions in
front of the first failure and ends with that. It counts these entries, and stops behind the
bytes of its instructions and those it passed over, at a decode call that fails.

This is what it shows behind the dump that was asked for: the lines of a text report list the
instructions and the bytes passed over in the order of the steps, and then the failure, the
counts and the code; those of a JSON report have the instructions and the same counts and code.
Every byte that is passed over is also reported by a warning. -/
theorem respond_agrees_decodeAll (options : Options) (data : List UInt8) :
    let entries := decodeAll options.settings data options.base
    let steps := stepsOf options.resync entries
    let instructions := steps.filterMap Except.toOption
    let skips := steps.filterMap Outcome.failure?
    let stop : Cursor :=
      { region := data
        position := totalLength instructions + skips.length
        base := options.base }
    ∃ result output report,
      run options.settings options.resync (.ofRegion data options.base) = .ok result ∧
      result.items.map Item.outcome = steps ∧
      result.tally = { decoded := instructions.length, skipped := skips.length } ∧
      Leads options.settings options.resync (.ofRegion data options.base) result.items stop ∧
      (decode options.settings stop).outcome = .error result.last ∧
      .error result.last = endOf options.resync entries (endOfBlock data options.base) ∧
      (options.resync = true → result.last.status.code = 1 ∨ result.last.status.code = 4) ∧
      (options.resync = false → skips = []) ∧
      respond options (some data) = .ok output ∧
      output.lines =
        (if options.dump then HexDump.lines options.base data else []) ++ report ∧
      (options.json = false →
        TextReport.read? report = some {
          steps := steps.map Shown.of
          error := if result.last.status.isEndOfInput then none else some result.last.message
          skipped := if options.resync then some skips.length else none
          instructions := instructions.length
          status := result.last.status.text
          code := result.last.status.code }) ∧
      (options.json = true →
        JsonReport.read? report = some {
          listings := instructions.map (Listing.of options.base data)
          instructions := instructions.length
          skipped := skips.length
          status := result.last.status
          code := result.last.status.code }) ∧
      output.events.filterMap Event.skipped? = skips := by
  intro entries steps instructions skips stop
  obtain ⟨result, place, hrun, hleads, htally, hevents, houtcome, hlast⟩ :=
    run_leads options.settings options.resync (.ofRegion data options.base) {} (Nat.zero_le _)
  obtain ⟨hsteps, hfinal⟩ := hleads.outcomes_eq houtcome hlast
  have hsteps : result.items.map Item.outcome = steps := hsteps
  have hinstructions : result.instructions = instructions := by
    rw [Run.instructions, filterMap_instruction?, hsteps]
  have hskips : result.skips = skips := by
    rw [Run.skips, filterMap_skipped?, hsteps]
  have hplace : place = stop := by
    rw [hleads.eq_forward, Cursor.forward, Cursor.ofRegion, Nat.zero_add]
    show { region := data, position := totalLength result.instructions + result.skips.length,
           base := options.base : Cursor } = stop
    rw [hinstructions, hskips]
  rw [hinstructions, hskips, Nat.zero_add, Nat.zero_add] at htally
  rw [hplace] at hleads houtcome
  refine ⟨result, _, _, hrun, hsteps, htally, hleads, houtcome, hfinal, ?_, ?_,
    respond_of_run hrun, rfl, ?_, ?_, ?_⟩
  · intro hresync
    rw [hresync] at hlast
    exact code_of_isResynchronizable hlast
  · intro hresync
    rw [hresync] at hleads
    rw [← hskips]
    exact hleads.skips_eq_nil
  · intro hjson
    rw [hjson, if_neg Bool.false_ne_true, TextReport.read?_textLines, htally, hsteps]
  · intro hjson
    rw [if_pos hjson,
      JsonReport.read?_jsonLines _ _ hleads.length_lt (fits_status_of_outcome houtcome), htally,
      hinstructions]
  · rw [Event.filterMap_skipped?_upTo, ← hskips, ← hevents]
    rfl

/-- A byte that no instruction starts with, between two NOPs: the report shows where it is passed
over, and the two instructions behind it. -/
theorem respond_agrees_decodeAll_unmapped_byte :
    ∃ output,
      respond { file := "code", resync := true } (some [0x90, 0x06, 0x90, 0xC3]) = .ok output ∧
      TextReport.read? output.lines = some {
        steps := [
          .listed { rip := 0, opcode := 0x90, escape := 0 },
          .skipped 1 "malformed encoding (no encoding is defined for opcode 06)",
          .listed { rip := 2, opcode := 0x90, escape := 0 },
          .listed { rip := 3, opcode := 0xC3, escape := 0 }]
        error := none
        skipped := some 1
        instructions := 3
        status := "end of input"
        code := 1 } := by
  let options : Options := { file := "code", resync := true }
  let call (bytes : List UInt8) (address : UInt64) := decodeAt options.settings bytes address
  have hreturn : decodeAll options.settings [0xC3] 3 = [call [0xC3] 3] :=
    (decodeAll_of_not_isOutOfInput (List.cons_ne_nil _ _) (by decide)).trans
      (congrArg _ (decodeAll_nil _ _))
  have hnop : decodeAll options.settings [0x90, 0xC3] 2 = [call [0x90, 0xC3] 2, call [0xC3] 3] :=
    (decodeAll_of_not_isOutOfInput (List.cons_ne_nil _ _) (by decide)).trans (congrArg _ hreturn)
  have hunmapped : decodeAll options.settings [0x06, 0x90, 0xC3] 1 =
      [call [0x06, 0x90, 0xC3] 1, call [0x90, 0xC3] 2, call [0xC3] 3] :=
    (decodeAll_of_not_isOutOfInput (List.cons_ne_nil _ _) (by decide)).trans (congrArg _ hnop)
  have hentries : decodeAll options.settings [0x90, 0x06, 0x90, 0xC3] options.base =
      [call [0x90, 0x06, 0x90, 0xC3] 0, call [0x06, 0x90, 0xC3] 1, call [0x90, 0xC3] 2,
        call [0xC3] 3] :=
    (decodeAll_of_not_isOutOfInput (List.cons_ne_nil _ _) (by decide)).trans
      (congrArg _ hunmapped)
  have hagrees := respond_agrees_decodeAll options [0x90, 0x06, 0x90, 0xC3]
  rw [hentries] at hagrees
  obtain ⟨result, output, report, -, -, -, -, -, hlast, -, -, houtput, hlines, hreport, -⟩ :=
    hagrees
  have hlast : result.last = { address := 4, cause := .endOfInput } := Except.error.inj hlast
  have hlines : output.lines = report := hlines
  have hreport := hreport rfl
  rw [hlast, ← hlines] at hreport
  exact ⟨output, houtput, hreport⟩

end CommandLine

end LongMode
