import LongMode.Proofs.FileRun
import LongMode.Proofs.JsonForms
import LongMode.Proofs.LengthLimit
import LongMode.Proofs.ReadWindow
import LongMode.Proofs.Slices

/-!
# Text reports and JSON reports

Here is how a reader takes the reports of a run apart. `TextReport.read?` reads the lines of a
text report one after the other by their labels, those of the steps first, and accepts no other
line; `JsonReport.read?` reads each line of a JSON report as a JSON text and takes the fields by
their names. What they find is what the run did (`TextReport.read?_textLines`,
`JsonReport.read?_jsonLines`), so the two reports of a file agree, and the bytes of the
instructions put the file together again (`respond_reports_agree`).
-/

namespace LongMode.CommandLine

/-- What both reports say about an instruction: its address, its opcode byte, and how many
escape bytes stand before that. -/
structure Listed where
  rip : UInt64
  opcode : UInt8
  escape : UInt8
deriving DecidableEq, Repr

/-- What is listed for an instruction. -/
def Listed.of (instruction : Instruction) : Listed where
  rip := instruction.address
  opcode := instruction.opcode.byte
  escape := instruction.escapeDepth

/-! ## Text lines -/

/-- What stands behind a label. -/
def behind? (label : String) (text : List Char) : Option (List Char) :=
  label.toList.isPrefixOf? text

/-- The decimal number that is all there is in a text. -/
def decimal? (text : List Char) : Option Nat :=
  match Numeral.number? 10 text with
  | some (number, []) => some number
  | _ => none

/-- The number in a line behind a label. -/
def labelled? (label line : String) : Option Nat := do
  let text ← behind? label line.toList
  decimal? text

/-- What the line of an instruction lists. -/
def listed? (line : String) : Option Listed := do
  let text ← behind? "rip: " line.toList
  let (rip, text) ← Numeral.number? 16 text
  let text ← behind? ", opcode: " text
  let (opcode, text) ← Numeral.number? 16 text
  let text ← behind? ", escape: " text
  let escape ← decimal? text
  pure { rip := UInt64.ofNat rip, opcode := UInt8.ofNat opcode, escape := UInt8.ofNat escape }

/-- What the line of a step shows: an instruction, or that a byte was passed over and why. -/
inductive Shown where
  | listed (instruction : Listed)
  | skipped (address : UInt64) (status : String)
deriving DecidableEq, Repr

/-- What is shown for the outcome of a decode call that a step was made for. -/
def Shown.of : Outcome → Shown
  | .ok instruction => .listed (.of instruction)
  | .error failure => .skipped failure.address failure.status.text

/-- What is listed by the line of a step, if it is that of an instruction. -/
def Shown.listed? : Shown → Option Listed
  | .listed instruction => some instruction
  | .skipped _ _ => none

/-- What the line of a byte that was passed over shows. -/
def skipped? (line : String) : Option Shown := do
  let text ← behind? "skip: " line.toList
  let (address, text) ← Numeral.number? 16 text
  let text ← behind? " (" text
  let status ← List.isSuffixOf? ")".toList text
  pure (.skipped (UInt64.ofNat address) (String.ofList status))

/-- What the line of a step shows. -/
def shown? (line : String) : Option Shown :=
  ((listed? line).map .listed).or (skipped? line)

/-- What the first lines show as long as they are those of steps, and the lines behind them. -/
def shownFirst : List String → List Shown × List String
  | [] => ([], [])
  | line :: lines =>
      match shown? line with
      | some shown =>
          let (following, rest) := shownFirst lines
          (shown :: following, rest)
      | none => ([], line :: lines)

/-- The text in a line behind a label. -/
def textBehind? (label line : String) : Option String :=
  (behind? label line.toList).map String.ofList

/-- What is read from the first line, and the lines behind it. If it is another line, it is left
where it is. -/
def optionalLine {α : Type} (read? : String → Option α) : List String → Option α × List String
  | [] => (none, [])
  | line :: lines =>
      match read? line with
      | some value => (some value, lines)
      | none => (none, line :: lines)

/-- What a reader finds in a text report. -/
structure TextReport where
  /-- What the lines of the steps show, in order. -/
  steps : List Shown
  /-- The failure that ended the run, if the report has it. -/
  error : Option String
  /-- The number of bytes passed over, if the report has it. -/
  skipped : Option Nat
  instructions : Nat
  status : String
  code : Nat
deriving DecidableEq, Repr

/-- The instructions that a text report lists. -/
def TextReport.listed (report : TextReport) : List Listed :=
  report.steps.filterMap Shown.listed?

/-- Reads the lines of a text report. -/
def TextReport.read? (lines : List String) : Option TextReport :=
  let (steps, lines) := shownFirst lines
  let (error, lines) := optionalLine (textBehind? "error: ") lines
  let (skipped, lines) := optionalLine (labelled? "skipped bytes: ") lines
  match lines with
  | [instructions, status, code] => do
      let instructions ← labelled? "instructions: " instructions
      let status ← textBehind? "status: " status
      let code ← labelled? "last status code: " code
      pure { steps, error, skipped, instructions, status, code }
  | _ => none

/-- The labels of the lines of a text report. -/
def labels : List String :=
  ["rip: ", "skip: ", "error: ", "skipped bytes: ", "instructions: ", "status: ",
    "last status code: "]

theorem behind?_append (label : String) (rest : List Char) :
    behind? label (label.toList ++ rest) = some rest :=
  List.isPrefixOf?_eq_some_iff_append_eq.mpr rfl

/-- No label is the beginning of another one, so a line has one label only. -/
theorem behind?_other {label other : String} (hlabel : label ∈ labels) (hother : other ∈ labels)
    (hne : label ≠ other) (rest : List Char) : behind? label (other.toList ++ rest) = none := by
  have hfree : ∀ first ∈ labels, ∀ second ∈ labels, first ≠ second →
      ¬ first.toList <+: second.toList := by decide
  refine Option.eq_none_iff_forall_ne_some.mpr ?_
  intro text htext
  have happend : label.toList ++ text = other.toList ++ rest :=
    List.isPrefixOf?_eq_some_iff_append_eq.mp htext
  rcases List.prefix_or_prefix_of_prefix (List.prefix_append label.toList text)
    (happend ▸ List.prefix_append other.toList rest) with h | h
  · exact hfree label hlabel other hother hne h
  · exact hfree other hother label hlabel hne.symm h

theorem decimal?_toString (number : Nat) : decimal? (toString number).toList = some number := by
  have hnumber : Numeral.number? 10 ((toString number).toList ++ []) = some (number, []) :=
    Numeral.number?_toString number nofun
  rw [List.append_nil] at hnumber
  rw [decimal?, hnumber]

theorem labelled?_self (label : String) (number : Nat) :
    labelled? label (label ++ toString number) = some number := by
  rw [labelled?, String.toList_append, behind?_append]
  exact decimal?_toString number

theorem textBehind?_self (label text : String) : textBehind? label (label ++ text) = some text := by
  rw [textBehind?, String.toList_append, behind?_append, Option.map_some, String.ofList_toList]

theorem labelled?_other {label other : String} (hlabel : label ∈ labels) (hother : other ∈ labels)
    (hne : label ≠ other) (content : String) : labelled? label (other ++ content) = none := by
  rw [labelled?, String.toList_append, behind?_other hlabel hother hne]
  rfl

theorem textBehind?_other {label other : String} (hlabel : label ∈ labels)
    (hother : other ∈ labels) (hne : label ≠ other) (content : String) :
    textBehind? label (other ++ content) = none := by
  rw [textBehind?, String.toList_append, behind?_other hlabel hother hne]
  rfl

theorem listed?_other {other : String} (hother : other ∈ labels) (hne : "rip: " ≠ other)
    (content : String) : listed? (other ++ content) = none := by
  rw [listed?, String.toList_append, behind?_other (by decide) hother hne]
  rfl

/-- A line with another label is not that of a step. -/
theorem shown?_other {other : String} (hother : other ∈ labels) (hrip : "rip: " ≠ other)
    (hskip : "skip: " ≠ other) (content : String) : shown? (other ++ content) = none := by
  rw [shown?, listed?_other hother hrip, skipped?, String.toList_append,
    behind?_other (by decide) hother hskip]
  rfl

/-- A hexadecimal number is read up to a label that starts with another character. -/
theorem number?_digits_label {label : String} {first : Char}
    (hlabel : label.toList.head? = some first) (hfirst : Numeral.isDigit 16 first = false)
    (width number : Nat) (rest : List Char) :
    Numeral.number? 16 (Hex.digits width number ++ (label.toList ++ rest)) =
      some (number, label.toList ++ rest) := by
  refine Numeral.number?_digits (by omega) (by omega) width number ?_
  intro char hchar
  rw [List.head?_append, hlabel] at hchar
  cases hchar
  exact hfirst

theorem listed?_line (rip opcode escape : Nat) :
    listed? ("rip: " ++ Hex.padded 4 rip ++ ", opcode: " ++ Hex.padded 2 opcode ++ ", escape: "
      ++ toString escape) =
      some { rip := UInt64.ofNat rip, opcode := UInt8.ofNat opcode,
             escape := UInt8.ofNat escape } := by
  have hcomma : Numeral.isDigit 16 ',' = false := by decide
  have hopcode : ", opcode: ".toList.head? = some ',' := rfl
  have hescape : ", escape: ".toList.head? = some ',' := rfl
  simp only [listed?, Hex.padded, String.toList_append, String.toList_ofList, List.append_assoc,
    behind?_append, number?_digits_label hopcode hcomma, number?_digits_label hescape hcomma,
    decimal?_toString, Option.bind_eq_bind, Option.bind_some]
  rfl

theorem skipped?_line (address : Nat) (status : String) :
    skipped? ("skip: " ++ Hex.padded 4 address ++ " (" ++ status ++ ")") =
      some (.skipped (UInt64.ofNat address) status) := by
  have hblank : Numeral.isDigit 16 ' ' = false := by decide
  have hstatus : " (".toList.head? = some ' ' := rfl
  have hclosed : List.isSuffixOf? ")".toList (status.toList ++ ")".toList) = some status.toList :=
    List.isSuffixOf?_eq_some_iff_append_eq.mpr rfl
  simp only [skipped?, Hex.padded, String.toList_append, String.toList_ofList, List.append_assoc,
    behind?_append, number?_digits_label hstatus hblank, hclosed, Option.bind_eq_bind,
    Option.bind_some, String.ofList_toList]
  rfl

/-- The line of a step shows the outcome that the step was made for. -/
theorem shown?_line (item : Item) : shown? item.line = some (.of item.outcome) := by
  cases item with
  | decoded instruction =>
      have hline := listed?_line instruction.address.toNat instruction.opcode.byte.toNat
        instruction.escapeDepth.toNat
      rw [UInt64.ofNat_toNat, UInt8.ofNat_toNat, UInt8.ofNat_toNat] at hline
      rw [shown?, show listed? (Item.decoded instruction).line = some (.of instruction) from hline]
      rfl
  | skipped failure =>
      have hline := skipped?_line failure.address.toNat failure.status.text
      rw [UInt64.ofNat_toNat] at hline
      have hlisted : listed? (Item.skipped failure).line = none := by
        rw [Item.line]
        simp only [String.append_assoc]
        exact listed?_other (by decide) (by decide) _
      rw [shown?, hlisted]
      exact hline

/-- The lines of the steps are read one by one, up to a line that is not one of them. -/
theorem shownFirst_append (items : List Item) {rest : List String}
    (hrest : ∀ line ∈ rest.head?, shown? line = none) :
    shownFirst (items.map Item.line ++ rest) =
      ((items.map Item.outcome).map Shown.of, rest) := by
  induction items with
  | nil =>
      cases rest with
      | nil => rfl
      | cons line lines =>
          rw [List.map_nil, List.nil_append, shownFirst, hrest line rfl]
          rfl
  | cons item items ih =>
      rw [List.map_cons, List.cons_append, shownFirst, shown?_line, ih]
      rfl

/-- What a reader finds in the text report of a run is what the run did. -/
theorem TextReport.read?_textLines (run : Run) (resync : Bool) :
    TextReport.read? (run.textLines resync) = some {
      steps := (run.items.map Item.outcome).map Shown.of
      error := if run.last.status.isEndOfInput then none else some run.last.message
      skipped := if resync then some run.tally.skipped else none
      instructions := run.tally.decoded
      status := run.last.status.text
      code := run.last.status.code } := by
  unfold TextReport.read? Run.textLines
  dsimp only
  generalize run.last.status.isEndOfInput = complete
  rw [List.append_assoc, List.append_assoc, shownFirst_append]
  -- Two of the lines behind the steps are not always there.
  · cases complete <;> cases resync <;>
      simp +decide only [optionalLine, labelled?_self, labelled?_other, textBehind?_self,
        textBehind?_other, List.cons_append, List.nil_append, if_true, if_false,
        Option.bind_eq_bind, Option.bind_some] <;>
      rfl
  · intro line hline
    cases complete <;> cases resync <;> cases hline <;>
      exact shown?_other (by decide) (by decide) (by decide) _

/-- The instructions among the steps are listed. -/
theorem filterMap_listed? (items : List Item) :
    ((items.map Item.outcome).map Shown.of).filterMap Shown.listed? =
      (items.filterMap Item.instruction?).map Listed.of := by
  rw [List.map_map, List.filterMap_map, List.map_filterMap]
  refine List.filterMap_congr ?_
  intro item _
  cases item with
  | decoded instruction => rfl
  | skipped failure => rfl

/-! ## JSON lines -/

/-- What a reader finds in the JSON line of an instruction. -/
structure Listing where
  listed : Listed
  length : Nat
  /-- The bytes, as they are shown. -/
  bytes : String
  instruction : Instruction
deriving DecidableEq, Repr

/-- The string that a member holds. -/
def stringField? (members : List (String × Json)) (key : String) : Option String :=
  match members.lookup key with
  | some (.str text) => some text
  | _ => none

/-- The natural number that a member holds, of any size. -/
def countField? (members : List (String × Json)) (key : String) : Option Nat :=
  match members.lookup key with
  | some (.int (.ofNat count)) => some count
  | _ => none

/-- Takes the JSON line of an instruction apart. -/
def Listing.ofJson? : Json → Option Listing
  | .obj members => do
      let rip ← Json.field? members "rip"
      let opcode ← Json.field? members "opcode"
      let escape ← Json.field? members "escape"
      let length ← Json.field? members "length"
      let bytes ← stringField? members "bytes"
      let instruction ← Json.field? members "instruction"
      pure { listed := { rip, opcode, escape }, length, bytes, instruction }
  | _ => none

/-- What a reader finds in a JSON report. -/
structure JsonReport where
  listings : List Listing
  instructions : Nat
  skipped : Nat
  status : Status
  code : Nat
deriving DecidableEq, Repr

/-- Puts what is in the last line behind what is in the others. -/
def JsonReport.ofSummary? (listings : List Listing) : Json → Option JsonReport
  | .obj members => do
      let instructions ← countField? members "instructions"
      let skipped ← countField? members "skipped"
      let status ← Json.field? members "status"
      let code ← countField? members "code"
      pure { listings, instructions, skipped, status, code }
  | _ => none

/-- Reads the lines of a JSON report: one for each instruction, and the summary. -/
def JsonReport.read? (lines : List String) : Option JsonReport := do
  let values ← lines.mapM Json.read?
  let summary ← values.getLast?
  let listings ← values.dropLast.mapM Listing.ofJson?
  ofSummary? listings summary

/-- What the JSON line of an instruction shows of it, for a file at the given base. -/
def Listing.of (base : UInt64) (data : List UInt8) (instruction : Instruction) : Listing where
  listed := .of instruction
  length := instruction.length
  bytes := ((instruction.bytes? data base).map Hex.spaced).getD ""
  instruction

theorem field?_of_lookup {α : Type} [JsonCodec α] [LawfulJsonCodec α]
    {members : List (String × Json)} {key : String} {value : α}
    (hlookup : members.lookup key = some (toJson value)) (hfits : Fits value) :
    Json.field? members key = some value := by
  unfold Json.field?
  rw [hlookup]
  exact ofJson?_of_spells (spells_toJson hfits)

theorem Listing.ofJson?_instructionJson (base : UInt64) (data : List UInt8)
    {instruction : Instruction} (h : instruction.length < 2 ^ 64) :
    Listing.ofJson? (instructionJson base data instruction) =
      some (.of base data instruction) := by
  unfold instructionJson Listing.ofJson?
  dsimp only
  rw [show Json.field? _ "rip" = some instruction.address from field?_of_lookup rfl trivial,
    show Json.field? _ "opcode" = some instruction.opcode.byte from field?_of_lookup rfl trivial,
    show Json.field? _ "escape" = some instruction.escapeDepth from field?_of_lookup rfl trivial,
    show Json.field? _ "length" = some instruction.length from field?_of_lookup rfl h,
    show Json.field? _ "instruction" = some instruction from field?_of_lookup rfl h]
  rfl

theorem isWhole_instructionJson (base : UInt64) (data : List UInt8) (instruction : Instruction) :
    (instructionJson base data instruction).isWhole = true := by
  show Json.membersAreWhole _ = true
  simp only [Json.membersAreWhole, isWhole_toJson, Json.isWhole, Bool.and_self]

theorem JsonReport.ofSummary?_summaryJson (listings : List Listing) {run : Run}
    (h : Fits run.last.status) :
    JsonReport.ofSummary? listings run.summaryJson = some {
      listings
      instructions := run.tally.decoded
      skipped := run.tally.skipped
      status := run.last.status
      code := run.last.status.code } := by
  unfold Run.summaryJson JsonReport.ofSummary?
  dsimp only
  rw [show Json.field? _ "status" = some run.last.status from field?_of_lookup rfl h]
  rfl

theorem isWhole_summaryJson (run : Run) : run.summaryJson.isWhole = true := by
  show Json.membersAreWhole _ = true
  simp only [Json.membersAreWhole, isWhole_toJson, Bool.and_self]

/-- A list of texts is read one by one. -/
theorem mapM_map_eq_some {α β γ : Type} {write : α → β} {read : β → Option γ} {meaning : α → γ}
    {values : List α} (h : ∀ value ∈ values, read (write value) = some (meaning value)) :
    (values.map write).mapM read = some (values.map meaning) := by
  induction values with
  | nil => rfl
  | cons value values ih =>
      obtain ⟨hvalue, hvalues⟩ := List.forall_mem_cons.mp h
      rw [List.map_cons, List.mapM_cons, hvalue, ih hvalues]
      rfl

/-- What a reader finds in the JSON report of a run is what the run did. -/
theorem JsonReport.read?_jsonLines (base : UInt64) (data : List UInt8) {run : Run}
    (hlengths : ∀ instruction ∈ run.instructions, instruction.length < 2 ^ 64)
    (hlast : Fits run.last.status) :
    JsonReport.read? (run.jsonLines base data) = some {
      listings := run.instructions.map (Listing.of base data)
      instructions := run.tally.decoded
      skipped := run.tally.skipped
      status := run.last.status
      code := run.last.status.code } := by
  have hvalues : (run.jsonLines base data).mapM Json.read? =
      some (run.instructions.map (instructionJson base data) ++ [run.summaryJson]) := by
    rw [Run.jsonLines, mapM_map_eq_some, List.map_id]
    intro value hvalue
    refine Json.read?_render ?_
    rcases List.mem_append.mp hvalue with hvalue | hvalue
    · obtain ⟨instruction, -, rfl⟩ := List.mem_map.mp hvalue
      exact isWhole_instructionJson base data instruction
    · obtain rfl := List.mem_singleton.mp hvalue
      exact isWhole_summaryJson run
  have hlistings : (run.instructions.map (instructionJson base data)).mapM Listing.ofJson? =
      some (run.instructions.map (Listing.of base data)) :=
    mapM_map_eq_some fun instruction hinstruction =>
      Listing.ofJson?_instructionJson base data (hlengths instruction hinstruction)
  unfold JsonReport.read?
  simp only [hvalues, Option.bind_eq_bind, Option.bind_some, List.getLast?_concat,
    List.dropLast_concat, hlistings]
  exact ofSummary?_summaryJson _ hlast

/-! ## The steps of a run -/

section

variable {settings : Settings} {cursor : Cursor}

theorem length_lt_of_outcome {instruction : Instruction}
    (h : (decode settings cursor).outcome = .ok instruction) : instruction.length < 2 ^ 64 := by
  obtain ⟨-, bytes, rest, -, hencoded⟩ := outcome_eq_ok_iff_isEncodedBy.mp h
  have hlength := hencoded.length_le
  have hlimit : settings.lengthLimit ≤ 15 := settings.lengthLimit_le
  omega

/-- The lengths in the status of a failed decode call are 64-bit numbers. -/
theorem fits_status_of_outcome {failure : Failure}
    (h : (decode settings cursor).outcome = .error failure) : Fits failure.status := by
  obtain ⟨address, cause⟩ := failure
  cases cause with
  | malformed reason =>
      have hread := readInstruction_of_cause_eq_malformed h rfl
      cases reason with
      | tooLong length limit =>
          have hwithin : length ≤ settings.lengthLimit + 10 :=
            (staysWithin_readInstruction settings cursor.address rfl).isWithin _ hread
          obtain ⟨rfl, -⟩ := lt_of_readInstruction_eq_tooLong rfl hread
          have hlimit : settings.lengthLimit ≤ 15 := settings.lengthLimit_le
          refine ⟨?_, ?_⟩
          · omega
          · omega
      | unmappedOpcode opcode => trivial
      | unsupported byte => trivial
  | endOfInput | truncated needed available | prefixConflict byte => trivial

end

namespace Leads

variable {settings : Settings} {resync : Bool} {cursor stop : Cursor} {items : List Item}

/-- Every instruction of a run was decoded somewhere in the region. -/
theorem exists_place (h : Leads settings resync cursor items stop) :
    ∀ instruction ∈ items.filterMap Item.instruction?, ∃ place : Cursor,
      place.region = cursor.region ∧ place.base = cursor.base ∧
      (decode settings place).outcome = .ok instruction := by
  induction h with
  | here cursor => exact fun _ h => absurd h List.not_mem_nil
  | @decoded cursor stop first items houtcome htail ih =>
      have hkept := region_decode_cursor settings cursor
      rw [hkept.1, hkept.2] at ih
      rw [List.filterMap_cons]
      exact List.forall_mem_cons.mpr ⟨⟨cursor, rfl, rfl, houtcome⟩, ih⟩
  | skipped houtcome hresume hskip htail ih =>
      obtain ⟨-, rfl⟩ := Cursor.advance_eq_ok_iff.mp hskip
      rw [(cursor_of_outcome_eq_error houtcome).1] at ih
      exact ih

/-- The lengths of the instructions of a run are 64-bit numbers. -/
theorem length_lt (h : Leads settings resync cursor items stop) :
    ∀ instruction ∈ items.filterMap Item.instruction?, instruction.length < 2 ^ 64 := by
  intro instruction hinstruction
  obtain ⟨place, -, -, houtcome⟩ := h.exists_place instruction hinstruction
  exact length_lt_of_outcome houtcome

/-- Without resynchronisation the bytes of the instructions follow each other from where the
run starts to where it stops. -/
theorem flatten_bytes (h : Leads settings false cursor items stop)
    (hregion : cursor.capacity < 2 ^ 64) :
    ((items.filterMap Item.instruction?).map fun instruction =>
      (instruction.bytes? cursor.region cursor.base).getD []).flatten =
      (cursor.region.drop cursor.position).take (stop.position - cursor.position) := by
  induction h with
  | here cursor =>
      rw [Nat.sub_self, List.take_zero]
      rfl
  | @decoded cursor stop first items houtcome htail ih =>
      obtain ⟨count, hstop⟩ : ∃ count, stop.position = cursor.position + first.length + count := by
        rw [htail.eq_forward, cursor_of_outcome_eq_ok houtcome]
        exact ⟨_, rfl⟩
      have hbytes := bytes?_of_outcome hregion houtcome
      rw [cursor_of_outcome_eq_ok houtcome] at ih
      have hfollowing := ih hregion
      rw [hstop] at hfollowing ⊢
      rw [List.filterMap_cons]
      show ((first.bytes? cursor.region cursor.base).getD [] :: _).flatten = _
      rw [List.flatten_cons, hbytes, hfollowing, Option.getD_some, Nat.add_sub_cancel_left,
        Nat.add_assoc, Nat.add_sub_cancel_left, List.take_add, List.drop_drop]
  | skipped houtcome hresume hskip htail ih => cases hresume

end Leads

/-! ## The two reports of a file -/

/-- The two reports say the same. Only a report of a run with resynchronisation shows the number
of bytes passed over as text, and without it there are none. -/
structure ReportsAgree (resync : Bool) (text : TextReport) (json : JsonReport) : Prop where
  listed : text.listed = json.listings.map Listing.listed
  instructions : text.instructions = json.instructions
  skipped : text.skipped = if resync then some json.skipped else none
  skipped_eq_zero : resync = false → json.skipped = 0
  code : text.code = json.code

/-- A listing shows the bytes of a file at its address: there are as many as it says, one at
least, they lie within the file, and they are shown in hexadecimal. -/
structure Listing.ShowsBytes (listing : Listing) (base : UInt64) (data : List UInt8) : Prop where
  length_pos : 0 < listing.length
  stop_le : (listing.listed.rip - base).toNat + listing.length ≤ data.length
  bytes_eq : listing.bytes =
    Hex.spaced ((data.drop (listing.listed.rip - base).toNat).take listing.length)
  length_eq : (Hex.unspaced? listing.bytes).map List.length = some listing.length

/-- The bytes that the listings show, one after the other. -/
def shownBytes? (listings : List Listing) : Option (List UInt8) :=
  (listings.mapM fun listing => Hex.unspaced? listing.bytes).map List.flatten

section

variable {settings : Settings} {resync : Bool} {data : List UInt8} {base : UInt64} {stop : Cursor}
variable {result : Run}

/-- The bytes of an instruction of a run lie where its address says. -/
theorem Leads.bytes?_eq (h : Leads settings resync (.ofRegion data base) result.items stop)
    (hdata : data.length < 2 ^ 64) {instruction : Instruction}
    (hinstruction : instruction ∈ result.instructions) :
    0 < instruction.length ∧
      (instruction.address - base).toNat + instruction.length ≤ data.length ∧
      instruction.bytes? data base =
        some ((data.drop (instruction.address - base).toNat).take instruction.length) := by
  obtain ⟨place, hregion, hbase, houtcome⟩ := h.exists_place instruction hinstruction
  have hregion : place.region = data := hregion
  have hbase : place.base = base := hbase
  have hcapacity : place.capacity < 2 ^ 64 := by
    rw [Cursor.capacity, hregion]
    exact hdata
  have hbytes := bytes?_of_outcome hcapacity houtcome
  rw [hregion, hbase] at hbytes
  obtain ⟨hstop, hslice⟩ := (Instruction.bytes?_eq_some_iff hdata).mp hbytes
  exact ⟨(Cursor.position_add_length_le houtcome).2, hstop,
    hbytes.trans (congrArg some hslice.symm)⟩

/-- A run shows the bytes of each of its instructions. -/
theorem Leads.showsBytes (h : Leads settings resync (.ofRegion data base) result.items stop)
    (hdata : data.length < 2 ^ 64) {instruction : Instruction}
    (hinstruction : instruction ∈ result.instructions) :
    (Listing.of base data instruction).ShowsBytes base data := by
  obtain ⟨hpos, hstop, hbytes⟩ := h.bytes?_eq hdata hinstruction
  have hshown : (Listing.of base data instruction).bytes =
      Hex.spaced ((data.drop (instruction.address - base).toNat).take instruction.length) := by
    unfold Listing.of
    dsimp only
    rw [hbytes]
    rfl
  refine ⟨hpos, hstop, hshown, ?_⟩
  rw [hshown, Hex.unspaced?_spaced, Option.map_some, List.length_take, List.length_drop]
  refine congrArg some ?_
  show min instruction.length _ = instruction.length
  omega

/-- Without resynchronisation, what is shown is the file up to where the run stops. -/
theorem Leads.shownBytes?_eq (h : Leads settings false (.ofRegion data base) result.items stop)
    (hdata : data.length < 2 ^ 64) :
    shownBytes? (result.instructions.map (Listing.of base data)) =
      some (data.take stop.position) := by
  have hflatten := h.flatten_bytes hdata
  have hread : ∀ instruction ∈ result.instructions,
      Hex.unspaced? (Listing.of base data instruction).bytes =
        some ((instruction.bytes? data base).getD []) := by
    intro instruction hinstruction
    rw [(h.showsBytes hdata hinstruction).bytes_eq, Hex.unspaced?_spaced,
      (h.bytes?_eq hdata hinstruction).2.2]
    rfl
  have hchunks : (result.instructions.map (Listing.of base data)).mapM
        (fun listing => Hex.unspaced? listing.bytes) =
      some (result.instructions.map fun instruction => (instruction.bytes? data base).getD []) :=
    mapM_map_eq_some hread
  unfold shownBytes?
  rw [hchunks]
  exact congrArg some hflatten

end

/-- The text report and the JSON report of a file agree, and the JSON report has the whole file
as far as it was decoded. Both runs succeed, and show the same dump in front of their reports if
one is asked for. The reports list the same instructions, counts and status code, which is that
of a decode call at the place where the run stops. The bytes of each instruction are shown, and
they are those of the file at its address. Without resynchronisation the bytes of all
instructions make up the file up to the place where the run stops; that is the whole file if the
last call was made at its end. -/
theorem respond_reports_agree (options : Options) (data : List UInt8)
    (hdata : data.length < 2 ^ 64) :
    ∃ text json textLines jsonLines textReport jsonReport stop last,
      respond { options with json := false } (some data) = .ok text ∧
      respond { options with json := true } (some data) = .ok json ∧
      text.lines =
        (if options.dump then HexDump.lines options.base data else []) ++ textLines ∧
      json.lines =
        (if options.dump then HexDump.lines options.base data else []) ++ jsonLines ∧
      TextReport.read? textLines = some textReport ∧
      JsonReport.read? jsonLines = some jsonReport ∧
      ReportsAgree options.resync textReport jsonReport ∧
      (∀ listing ∈ jsonReport.listings, listing.ShowsBytes options.base data) ∧
      stop ≤ data.length ∧
      (decode options.settings { region := data, position := stop, base := options.base }).outcome =
        .error last ∧
      last.status.code = jsonReport.code ∧
      (options.resync = false →
        shownBytes? jsonReport.listings = some (data.take stop) ∧
        (stop = data.length → shownBytes? jsonReport.listings = some data)) := by
  obtain ⟨result, stop, hrun, hleads, htally, -, houtcome, -⟩ :=
    run_leads options.settings options.resync (.ofRegion data options.base) {} (Nat.zero_le _)
  -- The settings of a run do not depend on how it is shown.
  have hruns (json : Bool) : run { options with json }.settings { options with json }.resync
      (.ofRegion data { options with json }.base) = .ok result := hrun
  have htext := respond_of_run (hruns false)
  have hjson := respond_of_run (hruns true)
  have hplace : stop = { region := data, position := stop.position, base := options.base } := by
    rw [hleads.eq_forward]
    rfl
  have hstop : stop.position ≤ data.length := by
    have hle := hleads.position_le (Nat.zero_le _)
    rw [hplace] at hle
    exact hle
  refine ⟨_, _, _, _, _, _, stop.position, result.last, htext, hjson, rfl, rfl,
    TextReport.read?_textLines result _,
    JsonReport.read?_jsonLines _ _ hleads.length_lt (fits_status_of_outcome houtcome), ?_, ?_, ?_,
    ?_, rfl, ?_⟩
  · refine ⟨?_, rfl, rfl, ?_, rfl⟩
    · show ((result.items.map Item.outcome).map Shown.of).filterMap Shown.listed? =
        (result.instructions.map (Listing.of options.base data)).map Listing.listed
      rw [filterMap_listed?, List.map_map]
      rfl
    · intro hresync
      rw [hresync] at hleads
      show result.tally.skipped = 0
      rw [htally, Run.skips, hleads.skips_eq_nil]
      rfl
  · intro listing hlisting
    obtain ⟨instruction, hinstruction, rfl⟩ := List.mem_map.mp hlisting
    exact hleads.showsBytes hdata hinstruction
  · exact hstop
  · rw [← hplace]
    exact houtcome
  · intro hresync
    rw [hresync] at hleads
    have hshown := hleads.shownBytes?_eq hdata
    refine ⟨hshown, ?_⟩
    rintro hend
    rwa [hend, List.take_length] at hshown

/-- A NOP at the last address and a multiplication behind it, at the first one: the JSON report
shows all bytes of the file. -/
theorem respond_reports_agree_wrapped :
    ([0x90, 0x0F, 0xAF, 0xC3] : List UInt8).length < 2 ^ 64 ∧
    ∃ json report,
      respond { file := "code", base := 0xFFFFFFFFFFFFFFFF, json := true }
        (some [0x90, 0x0F, 0xAF, 0xC3]) = .ok json ∧
      JsonReport.read? json.lines = some report ∧
      shownBytes? report.listings = some [0x90, 0x0F, 0xAF, 0xC3] := by
  have hdata : ([0x90, 0x0F, 0xAF, 0xC3] : List UInt8).length < 2 ^ 64 := by decide
  obtain ⟨-, json, -, lines, -, report, stop, last, -, hjson, -, hlines, -, hreport, -, -, hstop,
    houtcome, -, hshown⟩ := respond_reports_agree { file := "code", base := 0xFFFFFFFFFFFFFFFF }
      [0x90, 0x0F, 0xAF, 0xC3] hdata
  let call (place : Nat) : Outcome :=
    (decode ({ file := "code" } : Options).settings
      { region := [0x90, 0x0F, 0xAF, 0xC3], position := place, base := 0xFFFFFFFFFFFFFFFF }).outcome
  -- Something can be decoded at every place but the end.
  have hcalls : ∀ place < 4, (call place).isOk = true := by decide
  have hfailed : call stop = .error last := houtcome
  have hend : stop = 4 := by
    refine Nat.le_antisymm hstop (Nat.le_of_not_lt fun hlt => ?_)
    have hok := hcalls stop hlt
    rw [hfailed] at hok
    cases hok
  rw [if_neg Bool.false_ne_true, List.nil_append] at hlines
  rw [← hlines] at hreport
  exact ⟨hdata, json, report, hjson, hreport, (hshown rfl).2 hend⟩

end LongMode.CommandLine
