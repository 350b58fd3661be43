import LongMode.Proofs.ProbeState
import LongMode.Proofs.Reports

/-!
# The log of decode calls

A decode call reports what came of it, except at the end of a region, where there is nothing to
decode (`events_decode`). `Outcome.record` is the event that reports an outcome, so the log of a
block is the list of its entries, shown as events (`decodeAllEvents_eq`), and the log of any
other sequence of calls and moves is that of the calls made before the end
(`Probe.Coherent.log_eq`). `Note.read?` is how a reader of the log takes a record apart: from its
text it gets back the address, the opcode and the length of an instruction, or the wording of a
failure.
-/

namespace LongMode

/-- The event that reports an outcome. -/
def Outcome.record : Outcome → Event
  | .ok instruction => .decoded instruction
  | .error failure => .failed failure

/-! ## What decode calls report -/

/-- A decode call reports its outcome, unless it is made at the end of the region. -/
theorem events_decode (settings : Settings) (cursor : Cursor) :
    (decode settings cursor).events =
      if cursor.isAtEnd then [] else [(decode settings cursor).outcome.record] := by
  obtain ⟨hend, hdecode⟩ | ⟨fault, hend, -, hdecode⟩ | ⟨instruction, after, hend, -, hdecode⟩ :=
    decode_cases settings cursor
  · rw [hdecode, hend]
    rfl
  · rw [hdecode, hend]
    rfl
  · rw [hdecode, hend]
    rfl

/-- A decode call before the end of the region reports its outcome. -/
theorem events_decode_of_not_isAtEnd {settings : Settings} {cursor : Cursor}
    (hend : ¬ cursor.isAtEnd = true) :
    (decode settings cursor).events = [(decode settings cursor).outcome.record] := by
  rw [events_decode, if_neg hend]

/-- The decode calls that cover a region report one event each. -/
theorem flatMap_events_decodeSteps (settings : Settings) (cursor : Cursor) :
    (decodeSteps settings cursor).flatMap (·.events) =
      (decodeSteps settings cursor).map fun step => step.outcome.record := by
  fun_induction decodeSteps settings cursor with
  | case1 cursor hend => rfl
  | case2 cursor hend step instruction houtcome ih =>
      rw [List.flatMap_cons, List.map_cons, ih, events_decode_of_not_isAtEnd hend]
      rfl
  | case3 cursor hend step failure houtcome hresume next hskip ih =>
      rw [List.flatMap_cons, List.map_cons, ih, events_decode_of_not_isAtEnd hend]
      rfl
  | case4 cursor hend step failure houtcome hresume bounds hskip =>
      rw [List.flatMap_singleton, events_decode_of_not_isAtEnd hend]
      rfl
  | case5 cursor hend step failure houtcome hresume =>
      rw [List.flatMap_singleton, events_decode_of_not_isAtEnd hend]
      rfl

/-- Decoding a block reports its entries, in their order. -/
theorem decodeAllEvents_eq (settings : Settings) (bytes : List UInt8) (address : UInt64) :
    decodeAllEvents settings bytes address =
      (decodeAll settings bytes address).map Outcome.record := by
  rw [decodeAllEvents, flatMap_events_decodeSteps, decodeAll, List.map_map]
  rfl

namespace Event

/-- Nothing is less important than a trace. -/
theorem upTo_trace (events : List Event) : upTo .trace events = events := by
  refine List.filter_eq_self.mpr ?_
  intro event _
  cases event <;> rfl

/-- Of the records of decode calls, the level below the traces shows those of failures. -/
theorem upTo_debug_record (outcomes : List Outcome) :
    upTo .debug (outcomes.map Outcome.record) =
      (outcomes.map Outcome.record).filter fun event => event.level = .debug := by
  refine List.filter_congr ?_
  intro event hevent
  obtain ⟨outcome, -, rfl⟩ := List.mem_map.mp hevent
  cases outcome <;> rfl

end Event

/-! ## Sequences of calls and moves -/

namespace Probe

variable {probe : Probe} {region : List UInt8} {base : UInt64}

/-- A decode call: its settings, and the cursor that it is made at. -/
structure Call where
  settings : Settings
  cursor : Cursor
deriving DecidableEq, Repr

/-- The outcome of a decode call. -/
def Call.outcome (call : Call) : Outcome :=
  (LongMode.decode call.settings call.cursor).outcome

/-- The settings of a request to decode. -/
def Request.settings? : Request → Option Settings
  | .decode settings => some settings
  | _ => none

/-- The decode calls that requests make, in order. -/
def calls : Probe → List Request → List Call
  | _, [] => []
  | probe, request :: requests =>
      (request.settings?.map fun settings => { settings, cursor := probe.cursor }).toList
        ++ calls (probe.serve request).2 requests

/-- What requests report, in order. Only decode calls report anything. -/
def log : Probe → List Request → List Event
  | _, [] => []
  | probe, request :: requests =>
      (request.settings?.map fun settings =>
          (LongMode.decode settings probe.cursor).events).getD []
        ++ log (probe.serve request).2 requests

/-- Every request to decode is a call. -/
theorem map_settings_calls (probe : Probe) (requests : List Request) :
    (probe.calls requests).map (·.settings) = requests.filterMap Request.settings? := by
  induction requests generalizing probe with
  | nil => rfl
  | cons request requests ih =>
      rw [calls, List.map_append, ih, List.filterMap_cons]
      cases request.settings? <;> rfl

/-- Every call is made within the region. -/
theorem Coherent.position_of_mem_calls (h : probe.Coherent region base) (requests : List Request) :
    ∀ call ∈ probe.calls requests,
      call.cursor.region = region ∧ call.cursor.position ≤ region.length := by
  induction requests generalizing probe with
  | nil => exact nofun
  | cons request requests ih =>
      intro call hcall
      rcases List.mem_append.mp hcall with hfirst | hlater
      · obtain ⟨settings, -, rfl⟩ := Option.map_eq_some_iff.mp (Option.mem_toList.mp hfirst)
        exact ⟨h.region_eq, h.position_le⟩
      · exact ih ((h.does request).coherent h) call hlater

/-- The log is that of the calls made before the end of the region. -/
theorem Coherent.log_eq (h : probe.Coherent region base) (requests : List Request) :
    probe.log requests =
      ((probe.calls requests).filter fun call => call.cursor.position < region.length).map
        fun call => call.outcome.record := by
  induction requests generalizing probe with
  | nil => rfl
  | cons request requests ih =>
      rw [log, calls, List.filter_append, List.map_append, ih ((h.does request).coherent h)]
      congr 1
      cases request.settings? with
      | none => rfl
      | some settings =>
          have hposition := h.position_le
          have hend : probe.cursor.isAtEnd = true ↔ ¬ probe.cursor.position < region.length := by
            rw [Cursor.isAtEnd, h.capacity_eq, beq_iff_eq]
            omega
          simp only [Option.map_some, Option.getD_some, events_decode, hend, Option.toList_some]
          by_cases hbefore : probe.cursor.position < region.length
          · simp [hbefore, Call.outcome]
          · simp [hbefore]

end Probe

/-! ## Reading a record -/

namespace Hex

/-- The bytes that are shown in front of a character, and the text from there on. -/
def bytesBefore? (stop : Char) (text : List Char) : Option (List UInt8 × List Char) :=
  (unspaced? (String.ofList (text.takeWhile (· ≠ stop)))).map fun bytes =>
    (bytes, text.dropWhile (· ≠ stop))

/-- The text of some bytes has no characters but digits and blanks. -/
theorem isDigit_of_mem_spaced {bytes : List UInt8} {char : Char}
    (h : char ∈ (spaced bytes).toList) (hblank : char ≠ ' ') :
    Numeral.isDigit 16 char = true := by
  have hmem : char ∈ (spaced bytes).toList.filter (· ≠ ' ') :=
    List.mem_filter.mpr ⟨h, decide_eq_true hblank⟩
  clear h
  induction bytes with
  | nil => cases hmem
  | cons byte bytes ih =>
      rw [filter_spaced_cons] at hmem
      rcases List.mem_append.mp hmem with hdigit | hrest
      · exact Numeral.isDigit_of_worthFrom? (worth?_digits 2 byte.toNat) char hdigit
      · exact ih hrest

/-- Bytes are read up to a character that is neither a digit nor a blank. -/
theorem bytesBefore?_spaced {stop : Char} (hdigit : Numeral.isDigit 16 stop = false)
    (hblank : stop ≠ ' ') (bytes : List UInt8) (rest : List Char) :
    bytesBefore? stop ((spaced bytes).toList ++ ' ' :: stop :: rest) =
      some (bytes, stop :: rest) := by
  have hpass : ∀ char ∈ (spaced bytes).toList ++ [' '], decide (char ≠ stop) = true := by
    intro char hchar
    refine decide_eq_true ?_
    rintro rfl
    rcases List.mem_append.mp hchar with hmem | hmem
    · cases hdigit.symm.trans (isDigit_of_mem_spaced hmem hblank)
    · exact hblank (List.mem_singleton.mp hmem)
  have hbytes : unspaced? (String.ofList ((spaced bytes).toList ++ [' '])) = some bytes := by
    have hspaced := unspaced?_spaced bytes
    rw [unspaced?] at hspaced ⊢
    rw [String.toList_ofList, List.filter_append]
    simpa using hspaced
  rw [bytesBefore?, List.append_cons, List.takeWhile_append_of_pos hpass,
    List.dropWhile_append_of_pos hpass, List.takeWhile_cons_of_neg (by simp),
    List.dropWhile_cons_of_neg (by simp), List.append_nil, hbytes]
  rfl

end Hex

/-- The opcode with the given bytes. -/
def Opcode.ofEncoding? : List UInt8 → Option Opcode
  | [byte] => some { map := .oneByte, byte }
  | [0x0F, byte] => some { map := .twoByte, byte }
  | [0x0F, 0x38, byte] => some { map := .threeByte38, byte }
  | [0x0F, 0x3A, byte] => some { map := .threeByte3A, byte }
  | _ => none

theorem Opcode.ofEncoding?_encoding (opcode : Opcode) :
    Opcode.ofEncoding? opcode.encoding = some opcode := by
  obtain ⟨map, byte⟩ := opcode
  cases map <;> rfl

/-- What a record says about a decode call. -/
inductive Note where
  | decoded (address : UInt64) (opcode : Opcode) (length : Nat)
  | failed (message : String)
deriving DecidableEq, Repr

namespace Note

open CommandLine (behind? behind?_append)

/-- What there is to say about an outcome. -/
def of : Outcome → Note
  | .ok instruction => .decoded instruction.address instruction.opcode instruction.length
  | .error failure => .failed failure.message

/-- Reads the text of a record of a decoded instruction. -/
def decoded? (text : List Char) : Option Note := do
  let text ← behind? "0x" text
  let (address, text) ← Numeral.number? 16 text
  let text ← behind? ": " text
  let (encoding, text) ← Hex.bytesBefore? '(' text
  let opcode ← Opcode.ofEncoding? encoding
  let text ← behind? "(" text
  let (length, text) ← Numeral.number? 10 text
  match behind? " bytes)" text with
  | some [] => pure (.decoded (UInt64.ofNat address) opcode length)
  | _ => none

/-- Reads a record. Traces are of decoded instructions, the level above them is of failures. -/
def read? (level : Level) (text : String) : Option Note :=
  match level with
  | .trace => decoded? text.toList
  | .debug => (behind? "decode failed: " text.toList).map fun message =>
      .failed (String.ofList message)
  | _ => none

/-- The record of an instruction says its address, its opcode and its length. -/
theorem read?_decoded (instruction : Instruction) :
    read? .trace (Event.decoded instruction).text =
      some (.decoded instruction.address instruction.opcode instruction.length) := by
  have htext : (Event.decoded instruction).text =
      "0x" ++ Hex.padded 1 instruction.address.toNat ++ ": "
        ++ Hex.spaced instruction.opcode.encoding ++ " (" ++ toString instruction.length
        ++ " bytes)" := rfl
  have hopen : " (".toList = ' ' :: "(".toList := rfl
  have haddress (rest : List Char) :
      Numeral.number? 16 (Hex.digits 1 instruction.address.toNat ++ (": ".toList ++ rest)) =
        some (instruction.address.toNat, ": ".toList ++ rest) := by
    refine Numeral.number?_digits (by omega) (by omega) 1 _ ?_
    intro char hchar
    cases hchar
    rfl
  have hencoding (rest : List Char) :
      Hex.bytesBefore? '(' ((Hex.spaced instruction.opcode.encoding).toList
          ++ ' ' :: ("(".toList ++ rest)) =
        some (instruction.opcode.encoding, "(".toList ++ rest) :=
    Hex.bytesBefore?_spaced rfl (by decide) _ rest
  have hlength :
      Numeral.number? 10 ((toString instruction.length).toList ++ (" bytes)".toList ++ [])) =
        some (instruction.length, " bytes)".toList ++ []) := by
    refine Numeral.number?_toString _ ?_
    intro char hchar
    cases hchar
    rfl
  -- The lemmas on labels want a rest behind the last one, if only an empty one.
  show decoded? (Event.decoded instruction).text.toList = _
  rw [htext, ← List.append_nil (String.toList _)]
  simp only [Hex.padded, String.toList_append, String.toList_ofList, hopen, List.append_assoc,
    List.cons_append]
  simp only [decoded?, behind?_append, haddress, hencoding, hlength, Opcode.ofEncoding?_encoding,
    Option.bind_eq_bind, Option.bind_some, UInt64.ofNat_toNat]
  rfl

/-- The record of a failure says its wording. -/
theorem read?_failed (failure : Failure) :
    read? .debug (Event.failed failure).text = some (.failed failure.message) := by
  show (behind? _ ("decode failed: " ++ failure.message).toList).map _ = _
  rw [String.toList_append, behind?_append, Option.map_some, String.ofList_toList]

/-- The record of an outcome says what there is to say about it. -/
theorem read?_record (outcome : Outcome) :
    read? outcome.record.level outcome.record.text = some (of outcome) := by
  cases outcome with
  | ok instruction => exact read?_decoded instruction
  | error failure => exact read?_failed failure

end Note

/-- The log mirrors the outcomes. Of a block, the records of all levels are those of its entries,
one for each and in their order: a trace of every instruction, which says its address, its opcode
and its length, and a record of the level above it of every failure, which says its wording.
Without the traces exactly the records of failures are left. Over any sequence of decode calls
and moves, each decode call is made within the region; those made before its end are reported by
one record each, in their order, and those made at its end by none. -/
theorem log_mirrors_outcomes (settings : Settings) (region : List UInt8) (base : UInt64)
    (requests : List Probe.Request) :
    Event.upTo .trace (decodeAllEvents settings region base) =
      (decodeAll settings region base).map Outcome.record ∧
    (Event.upTo .trace (decodeAllEvents settings region base)).map
        (fun event => Note.read? event.level event.text) =
      (decodeAll settings region base).map (fun entry => some (Note.of entry)) ∧
    Event.upTo .debug (decodeAllEvents settings region base) =
      (Event.upTo .trace (decodeAllEvents settings region base)).filter
        (fun event => event.level = .debug) ∧
    ∃ calls, calls = Probe.calls { cursor := .ofRegion region base } requests ∧
      calls.map (·.settings) = requests.filterMap Probe.Request.settings? ∧
      (∀ call ∈ calls, call.cursor.region = region ∧ call.cursor.position ≤ region.length) ∧
      Event.upTo .trace (Probe.log { cursor := .ofRegion region base } requests) =
        (calls.filter fun call => call.cursor.position < region.length).map
          (fun call => call.outcome.record) := by
  have hcoherent := Probe.coherent_ofRegion region base
  rw [Event.upTo_trace, Event.upTo_trace, decodeAllEvents_eq]
  refine ⟨rfl, ?_, Event.upTo_debug_record _, _, rfl, Probe.map_settings_calls _ requests,
    hcoherent.position_of_mem_calls requests, hcoherent.log_eq requests⟩
  rw [List.map_map]
  exact List.map_congr_left fun entry _ => Note.read?_record entry

end LongMode
