import LongMode.Proofs.Chunks
import LongMode.Proofs.Truncation

/-!
# How far the decoder looks

The length limit is compared with the length of an instruction when all of it has been read,
so the decoder may look further than the limit. `StaysWithin` bounds how far: it is kept by
sequencing, every stage has a bound of its own, and the tables settle how much can follow the
prefixes (`Opcode.widest_le`). `staysWithin_readInstruction` adds the bounds up to ten bytes
behind the limit, and `exists_isOutOfInput` shows that they are all needed.
-/

namespace LongMode

/-- `fault.IsWithin start window` says that no byte behind the first `window` bytes from
`start` was asked for, and that no greater length is reported. -/
def Fault.IsWithin (fault : Fault) (start window : Nat) : Prop :=
  match fault with
  | .outOfBounds bounds => bounds.stop ≤ start + window
  | .malformed (.tooLong length _) => length ≤ window
  | _ => True

theorem Fault.IsWithin.mono {fault : Fault} {start window wider : Nat}
    (h : fault.IsWithin start window) (hle : window ≤ wider) : fault.IsWithin start wider := by
  cases fault with
  | outOfBounds bounds => exact Nat.le_trans h (Nat.add_le_add_left hle start)
  | malformed reason =>
      cases reason with
      | tooLong length limit => exact Nat.le_trans h hle
      | unmappedOpcode opcode => trivial
      | unsupported byte => trivial
  | prefixConflict byte => trivial

namespace Reader

variable {α β : Type} {window : Nat} {input : Lookahead}

/-- `reader.StaysWithin window input` says that the reader, started on `input`, asks for no
byte behind the first `window` bytes from where the lookahead started. -/
structure StaysWithin (reader : Reader α) (window : Nat) (input : Lookahead) : Prop where
  consumed_le : ∀ value after, reader input = .ok (value, after) →
    after.start = input.start ∧ after.consumed ≤ window
  isWithin : ∀ fault, reader input = .error fault → fault.IsWithin input.start window

theorem staysWithin_pure (value : α) (h : input.consumed ≤ window) :
    StaysWithin (pure value : Reader α) window input where
  consumed_le := by
    intro result after hread
    obtain ⟨-, rfl⟩ := pure_eq_ok_iff.mp hread
    exact ⟨rfl, h⟩
  isWithin := nofun

theorem staysWithin_fail {fault : Fault} (h : fault.IsWithin input.start window) :
    StaysWithin (fail fault : Reader α) window input where
  consumed_le := fun _ _ hread => absurd hread fail_ne_ok
  isWithin := by
    intro other hread
    cases hread
    exact h

theorem staysWithin_ite {condition : Prop} [Decidable condition] {yes no : Reader α}
    (hyes : yes.StaysWithin window input) (hno : no.StaysWithin window input) :
    StaysWithin (if condition then yes else no) window input := by
  split
  · exact hyes
  · exact hno

/-- A sequence stays within a window when its first part does, and its second part after
it. -/
theorem StaysWithin.bind {first : Reader α} {second : α → Reader β} {middle : Nat}
    (hfirst : first.StaysWithin middle input) (hmiddle : middle ≤ window)
    (hsecond : ∀ value between, first input = .ok (value, between) → between.consumed ≤ middle →
      (second value).StaysWithin window between) :
    StaysWithin (first >>= second) window input where
  consumed_le := by
    intro result after hread
    obtain ⟨value, between, hvalue, hread⟩ := bind_eq_ok_iff.mp hread
    obtain ⟨hstart, hbetween⟩ := hfirst.consumed_le value between hvalue
    obtain ⟨hafter, hwindow⟩ :=
      (hsecond value between hvalue hbetween).consumed_le result after hread
    exact ⟨hafter.trans hstart, hwindow⟩
  isWithin := by
    intro fault hread
    obtain hread | ⟨value, between, hvalue, hread⟩ := bind_eq_error_iff.mp hread
    · exact (hfirst.isWithin fault hread).mono hmiddle
    · obtain ⟨hstart, hbetween⟩ := hfirst.consumed_le value between hvalue
      rw [← hstart]
      exact (hsecond value between hvalue hbetween).isWithin fault hread

/-- A reader that asks for `count` bytes, and reads no more, stays within them. -/
theorem Asks.staysWithin {reader : Reader α} {count : Nat} (h : Asks reader count)
    (hreads : ∀ value after, reader input = .ok (value, after) →
      ∃ bytes, bytes.length ≤ count ∧ input.Reads bytes after) :
    StaysWithin reader (input.consumed + count) input where
  consumed_le := by
    intro value after hread
    obtain ⟨bytes, hlength, hbytes⟩ := hreads value after hread
    refine ⟨hbytes.start_eq, ?_⟩
    rw [hbytes.consumed_eq]
    omega
  isWithin := by
    intro fault hread
    obtain ⟨-, rfl⟩ := (h input fault).mp hread
    show input.start + input.consumed + count ≤ input.start + (input.consumed + count)
    omega

theorem staysWithin_peek : StaysWithin peek (input.consumed + 1) input := by
  refine asks_peek.staysWithin ?_
  intro value after hread
  exact ⟨[], Nat.zero_le _, Lookahead.reads_nil_iff.mpr (peek_eq_ok_iff.mp hread).2⟩

theorem staysWithin_byte : StaysWithin byte (input.consumed + 1) input := by
  refine asks_byte.staysWithin ?_
  intro value after hread
  exact ⟨[value], Nat.le_refl _, byte_eq_ok_iff.mp hread⟩

theorem staysWithin_skipByte : StaysWithin skipByte (input.consumed + 1) input := by
  refine asks_skipByte.staysWithin ?_
  intro result after hread
  obtain ⟨value, hreads⟩ := skipByte_eq_ok_iff.mp hread
  exact ⟨[value], Nat.le_refl _, hreads⟩

theorem staysWithin_littleEndian {count : Nat} (hcount : count ≤ 8) :
    StaysWithin (littleEndian count) (input.consumed + count) input := by
  refine (asks_littleEndian count).staysWithin ?_
  intro value after hread
  exact ⟨_, Nat.le_of_eq (LittleEndian.length_bytes _ _),
    ((littleEndian_eq_ok_iff hcount).mp hread).2⟩

theorem staysWithin_consumed : StaysWithin consumed input.consumed input where
  consumed_le := by
    intro value after hread
    obtain ⟨-, rfl⟩ := consumed_eq_ok_iff.mp hread
    exact ⟨rfl, Nat.le_refl _⟩
  isWithin := nofun

end Reader

open Reader

/-! ## The stages of the decoder -/

variable {window : Nat} {input : Lookahead}

/-- A scan looks at most one byte behind its room. -/
theorem Prefixes.staysWithin_scanFrom (policy : RexPolicy) (limit room : Nat)
    (prefixes : Prefixes) (h : input.consumed + room + 1 ≤ window) :
    StaysWithin (scanFrom policy limit room prefixes) window input := by
  induction room generalizing prefixes input with
  | zero =>
      refine staysWithin_consumed.bind (by omega) fun length between hlength _ => ?_
      obtain ⟨rfl, rfl⟩ := consumed_eq_ok_iff.mp hlength
      exact staysWithin_fail h
  | succ room ih =>
      rw [scanFrom_succ]
      refine staysWithin_peek.bind (by omega) fun byte between hbyte _ => ?_
      obtain ⟨-, rfl⟩ := peek_eq_ok_iff.mp hbyte
      cases prefixes.step? policy byte with
      | none => exact staysWithin_pure _ (by omega)
      | some next =>
          refine staysWithin_skipByte.bind (by omega) fun _ skipped _ hskipped => ?_
          exact ih next (by omega)

/-- An opcode has at most three bytes. -/
theorem Opcode.staysWithin_read (h : input.consumed + 3 ≤ window) :
    StaysWithin Opcode.read window input := by
  refine staysWithin_byte.bind (by omega) fun first l1 _ h1 => ?_
  refine staysWithin_ite (staysWithin_pure _ (by omega)) ?_
  refine staysWithin_byte.bind (by omega) fun second l2 _ h2 => ?_
  refine staysWithin_ite ?_ (staysWithin_ite ?_ (staysWithin_pure _ (by omega)))
  · exact staysWithin_byte.bind (by omega) fun third l3 _ h3 => staysWithin_pure _ (by omega)
  · exact staysWithin_byte.bind (by omega) fun third l3 _ h3 => staysWithin_pure _ (by omega)

/-- The table entry is looked up without reading. -/
theorem Opcode.staysWithin_layout (opcode : Opcode) (h : input.consumed ≤ window) :
    StaysWithin (Reader.ofExcept opcode.layout) window input := by
  cases hlayout : opcode.layout with
  | ok layout => exact staysWithin_pure _ h
  | error fault =>
      refine staysWithin_fail ?_
      unfold Fault.IsWithin
      split
      · exact absurd rfl (isDecisive_of_layout hlayout _)
      · exact absurd hlayout (opcode.layout_ne_tooLong _ _)
      · trivial

/-- The check of POP looks at one byte and reads none. -/
theorem Opcode.staysWithin_checkPop (opcode : Opcode) (h : input.consumed + 1 ≤ window) :
    StaysWithin opcode.checkPop window input := by
  refine staysWithin_ite ?_ (staysWithin_pure _ (by omega))
  refine staysWithin_peek.bind h fun byte between _ hbetween => ?_
  exact staysWithin_ite (staysWithin_fail trivial) (staysWithin_pure _ (by omega))

theorem Addressing.staysWithin_readSib (modrm : ModRM) (rex : Rex) :
    StaysWithin (readSib modrm rex) (input.consumed + 1) input := by
  refine staysWithin_ite ?_ (staysWithin_pure _ (by omega))
  exact staysWithin_byte.bind (Nat.le_refl _) fun byte between _ h => staysWithin_pure _ h

theorem Addressing.staysWithin_readDisplacement (size : DisplacementSize) :
    StaysWithin (readDisplacement size) (input.consumed + size.bytes) input := by
  cases size with
  | absent => exact staysWithin_pure _ (Nat.le_refl _)
  | byte =>
      exact staysWithin_byte.bind (Nat.le_refl _) fun byte between _ h => staysWithin_pure _ h
  | doubleword =>
      refine (staysWithin_littleEndian (by decide)).bind (Nat.le_refl _) ?_
      exact fun number between _ h => staysWithin_pure _ h

theorem DisplacementSize.bytes_le_four (size : DisplacementSize) : size.bytes ≤ 4 := by
  cases size <;> decide

/-- The most bytes that operands take: ModR/M, SIB and a displacement of four bytes. -/
def ModRMUsage.widest : ModRMUsage → Nat
  | .absent => 0
  | .present => 6
  | .registerOnly => 6

theorem Addressing.staysWithin_read (rex : Rex) (usage : ModRMUsage) :
    StaysWithin (Addressing.read rex usage) (input.consumed + 6) input := by
  refine staysWithin_byte.bind (by omega) fun byte l1 _ h1 => ?_
  refine staysWithin_ite (staysWithin_pure _ (by omega)) ?_
  refine (staysWithin_readSib _ rex).bind (by omega) fun sib l2 _ h2 => ?_
  have hsize := (ofMemory (ModRM.ofByte byte rex) sib).displacementSize.bytes_le_four
  refine (staysWithin_readDisplacement _).bind (by omega) fun displacement l3 _ h3 => ?_
  exact staysWithin_pure _ (by omega)

theorem staysWithin_readOperands (prefixes : Prefixes) (usage : ModRMUsage) :
    StaysWithin (readOperands prefixes usage) (input.consumed + usage.widest) input := by
  cases usage with
  | absent => exact staysWithin_pure _ (Nat.le_refl _)
  | present | registerOnly =>
      refine (Addressing.staysWithin_read _ _).bind (Nat.le_refl _) ?_
      exact fun operands between _ h => staysWithin_pure _ h

theorem Immediate.staysWithin_read (kind : ImmediateKind) (prefixes : Prefixes)
    (addressing : Option Addressing) :
    StaysWithin (Immediate.read kind prefixes addressing)
      (input.consumed + kind.size prefixes addressing) input := by
  refine staysWithin_ite (staysWithin_pure _ (Nat.le_add_right _ _)) ?_
  refine (staysWithin_littleEndian (kind.size_le_eight prefixes addressing)).bind
    (Nat.le_refl _) ?_
  exact fun value between _ h => staysWithin_pure _ h

/-! ## What can follow the prefixes -/

/-- The most bytes that an immediate of a kind takes under any prefixes and operands. -/
def ImmediateKind.widest : ImmediateKind → Nat
  | .absent => 0
  | .byte => 1
  | .word => 2
  | .doubleword => 4
  | .operandSized => 4
  | .operandSizedFull => 8
  | .enter => 3
  | .memoryOffset => 8
  | .testByte => 1
  | .testOperandSized => 4
  | .byteExtract => 2

theorem ImmediateKind.operandSizedBytes_le (prefixes : Prefixes) :
    operandSizedBytes prefixes ≤ 4 := by
  unfold operandSizedBytes
  cases prefixes.operandWidth <;> decide

theorem ImmediateKind.fullWidthBytes_le (prefixes : Prefixes) : fullWidthBytes prefixes ≤ 8 := by
  unfold fullWidthBytes
  cases prefixes.operandWidth <;> decide

theorem ImmediateKind.size_le_widest (kind : ImmediateKind) (prefixes : Prefixes)
    (addressing : Option Addressing) : kind.size prefixes addressing ≤ kind.widest := by
  have hoperand := operandSizedBytes_le prefixes
  have hfull := fullWidthBytes_le prefixes
  -- Under a condition on the prefixes or the reg field, a kind takes its full width or less.
  cases kind <;> simp only [size, widest, Nat.le_refl, hoperand, hfull]
  all_goals split <;> omega

/-- No layout of the tables takes more than eleven bytes, those of the opcode included. -/
theorem Opcode.widest_le {opcode : Opcode} {layout : Layout} (h : opcode.layout = .ok layout) :
    opcode.encoding.length + layout.modrm.widest + layout.immediate.widest ≤ 11 := by
  have hbands (map : OpcodeMap) : ∀ band ∈ map.bands, band.entry.kind = .defined →
      (map.escapeBytes.length + 1) + band.entry.modrm.widest + band.entry.immediate.widest ≤
        11 := by
    cases map <;> decide +kernel
  obtain ⟨hdefined, rfl⟩ := layout_eq_ok_iff.mp h
  rw [Opcode.encoding, List.length_append]
  unfold Opcode.entry at hdefined ⊢
  cases hfind : opcode.map.bands.find? (·.covers opcode.byte) with
  | none =>
      rw [hfind] at hdefined
      cases hdefined
  | some band =>
      rw [hfind] at hdefined
      exact hbands opcode.map band (List.mem_of_find?_eq_some hfind) hdefined

/-- What follows the prefixes is read from eleven bytes. -/
theorem staysWithin_readBody (limit : Nat) (address : UInt64) (prefixes : Prefixes)
    (h : input.consumed + 11 ≤ window) :
    StaysWithin (readBody limit address prefixes) window input := by
  refine (Opcode.staysWithin_read (Nat.le_refl _)).bind (by omega) fun opcode l1 hopcode h1 => ?_
  have hencoding := (Opcode.read_sound hopcode).2.consumed_eq
  refine (opcode.staysWithin_layout (Nat.le_refl _)).bind (by omega) fun layout l2 hlayout _ => ?_
  obtain ⟨hentry, rfl⟩ := ofExcept_eq_ok_iff.mp hlayout
  have hwidest := Opcode.widest_le hentry
  refine (opcode.staysWithin_checkPop (Nat.le_refl _)).bind (by omega) fun _ l3 hcheck _ => ?_
  obtain ⟨-, rfl⟩ := Opcode.checkPop_eq_ok_iff.mp hcheck
  refine (staysWithin_readOperands prefixes _).bind (by omega) fun operands l4 _ h4 => ?_
  have hsize := layout.immediate.size_le_widest prefixes operands.1
  refine (Immediate.staysWithin_read _ _ _).bind (by omega) fun immediate l5 _ h5 => ?_
  refine staysWithin_consumed.bind (by omega) fun length l6 hlength _ => ?_
  obtain ⟨rfl, rfl⟩ := consumed_eq_ok_iff.mp hlength
  have hwindow : l5.consumed ≤ window := by omega
  exact staysWithin_ite (staysWithin_fail hwindow) (staysWithin_pure _ hwindow)

/-- The decoder looks at most ten bytes behind the length limit. -/
theorem staysWithin_readInstruction (settings : Settings) (address : UInt64)
    (hfresh : input.consumed = 0) :
    StaysWithin (readInstruction settings address) (settings.lengthLimit + 10) input := by
  have hscan : StaysWithin (Prefixes.scan settings.rexPolicy settings.lengthLimit)
      (settings.lengthLimit + 1) input := by
    refine staysWithin_consumed.bind (by omega) fun length between hlength _ => ?_
    obtain ⟨rfl, rfl⟩ := consumed_eq_ok_iff.mp hlength
    exact Prefixes.staysWithin_scanFrom _ _ _ _ (by omega)
  rw [readInstruction_eq_bind]
  refine hscan.bind (by omega) fun prefixes between hprefixes _ => ?_
  obtain ⟨run, hroom, -, -, hreads⟩ := Prefixes.scan_eq_ok_iff.mp hprefixes
  have hconsumed := hreads.consumed_eq
  exact staysWithin_readBody _ _ _ (by omega)

/-! ## Outcomes -/

variable {settings : Settings} {source : List UInt8} {address : UInt64}

/-- Where there are bytes, a decode call runs out of input exactly when its reader runs out of
bounds. -/
theorem isOutOfInput_decodeAt_iff (hne : source ≠ []) :
    IsOutOfInput (decodeAt settings source address) ↔
      ∃ bounds, readInstruction settings address (Cursor.ofRegion source address).lookahead =
        .error (.outOfBounds bounds) := by
  rw [decodeAt_of_ne_nil settings hne]
  cases readInstruction settings address (Cursor.ofRegion source address).lookahead with
  | ok result => simp [not_isOutOfInput_ok]
  | error fault =>
      cases fault with
      | outOfBounds bounds =>
          exact iff_of_true (isOutOfInput_toFailure settings _ bounds) ⟨bounds, rfl⟩
      | malformed reason => simp [IsOutOfInput, Fault.toFailure]
      | prefixConflict byte => simp [IsOutOfInput, Fault.toFailure]

/-- A string that is ten bytes longer than the limit has all the bytes that decoding can ask
for. -/
theorem not_isOutOfInput_of_le_length (h : settings.lengthLimit + 10 ≤ source.length) :
    ¬ IsOutOfInput (decodeAt settings source address) := by
  have hne : source ≠ [] := by
    rintro rfl
    rw [List.length_nil] at h
    omega
  rw [isOutOfInput_decodeAt_iff hne]
  rintro ⟨bounds, hread⟩
  have hbehind := ((built_readInstruction settings address).keepsDemand _ bounds hread).1
  rw [Cursor.stop_lookahead_ofRegion] at hbehind
  have hwithin : bounds.stop ≤ 0 + (settings.lengthLimit + 10) :=
    (staysWithin_readInstruction settings address rfl).isWithin _ hread
  omega

/-- No byte further than ten bytes behind the limit changes an outcome. -/
theorem decodeAt_take_window (settings : Settings) (source : List UInt8) (address : UInt64) :
    decodeAt settings (source.take (settings.lengthLimit + 10)) address =
      decodeAt settings source address := by
  by_cases hlong : settings.lengthLimit + 10 ≤ source.length
  · have hlength : (source.take (settings.lengthLimit + 10)).length =
        settings.lengthLimit + 10 := List.length_take_of_le hlong
    have happend := decodeAt_append
      (@not_isOutOfInput_of_le_length _ _ address (Nat.le_of_eq hlength.symm))
      (source.drop (settings.lengthLimit + 10))
    rw [List.take_append_drop] at happend
    exact happend.symm
  · rw [List.take_of_length_le (by omega)]

/-- The entries of a block leave fewer bytes undecoded than decoding can ask for. -/
theorem Tiles.length_le_extent_settled {bytes : List UInt8} {entries : List Outcome}
    (h : Tiles settings bytes address entries) :
    bytes.length ≤ extent (settled entries) + (settings.lengthLimit + 9) := by
  induction h with
  | finished address => exact Nat.zero_le _
  | stopped hne hout =>
      have hshort := mt not_isOutOfInput_of_le_length (not_not_intro hout)
      omega
  | moved hne hin _ ih =>
      rw [settled_cons_of_not_isOutOfInput hin, extent_cons]
      rw [List.length_drop] at ih
      omega

/-! ## The bound is reached -/

/-- An addition of a doubleword to memory, without the last of its eleven bytes. -/
def cutAddition : List UInt8 :=
  [0x81, 0x84, 0x24, 0x00, 0x00, 0x00, 0x00, 0x00, 0x00, 0x00]

/-- The addition runs out of bounds, unless prefixes change the size of its operands. -/
theorem readBody_cutAddition (limit : Nat) (address : UInt64) {prefixes : Prefixes}
    {input : Lookahead} (hrex : prefixes.rex = none) (hsize : prefixes.operandSize = false)
    (hrest : input.rest = cutAddition) :
    ∃ bounds, readBody limit address prefixes input = .error (.outOfBounds bounds) := by
  obtain ⟨start, consumed, capacity, rest⟩ := input
  obtain rfl : rest = cutAddition := hrest
  have hclear : prefixes.rexOrClear = {} := by
    rw [Prefixes.rexOrClear, hrex]
    rfl
  have hwidth : ImmediateKind.operandSizedBytes prefixes = 4 := by
    rw [ImmediateKind.operandSizedBytes, Prefixes.operandWidth, Prefixes.rexW, hclear, hsize]
    rfl
  let behind : Lookahead := ⟨start, consumed + 1 + 1 + 1 + 4, capacity, [0x00, 0x00, 0x00]⟩
  obtain ⟨operands, hoperands⟩ : ∃ operands, readOperands prefixes .present
      ⟨start, consumed + 1, capacity, cutAddition.tail⟩ = .ok (operands, behind) := by
    rw [readOperands_of_ne_absent (by decide), hclear]
    exact ⟨_, bind_eq_ok_iff.mpr ⟨_, behind, rfl, rfl⟩⟩
  refine ⟨behind.outOfBounds 4, ?_⟩
  refine bind_eq_error_iff.mpr (.inr ⟨⟨.oneByte, 0x81⟩, _, rfl, ?_⟩)
  refine bind_eq_error_iff.mpr (.inr ⟨⟨.present, .operandSized⟩, _, rfl, ?_⟩)
  refine bind_eq_error_iff.mpr (.inr ⟨_, _, rfl, ?_⟩)
  refine bind_eq_error_iff.mpr (.inr ⟨_, _, hoperands, ?_⟩)
  refine bind_eq_error_iff.mpr (.inl ?_)
  show Immediate.read .operandSized prefixes operands.1 behind = _
  unfold Immediate.read ImmediateKind.size
  dsimp only
  rw [hwidth]
  rfl

/-- LOCK prefixes have no effect on the size of operands. -/
theorem Prefixes.run?_replicate_lock (policy : RexPolicy) {prefixes : Prefixes}
    (hrex : prefixes.rex = none) (hsize : prefixes.operandSize = false) (count : Nat) :
    ∃ result, prefixes.run? policy (List.replicate count 0xF0) = some result ∧
      result.rex = none ∧ result.operandSize = false := by
  induction count generalizing prefixes with
  | zero => exact ⟨prefixes, rfl, hrex, hsize⟩
  | succ count ih =>
      have hlegacy : LegacyPrefix.ofByte? 0xF0 = some .lock := rfl
      have hstep : prefixes.step? policy 0xF0 = some (prefixes.afterLegacy .lock) := by
        simp [step?, hlegacy, hrex]
      have hkept : (prefixes.afterLegacy .lock).operandSize = false := hsize
      obtain ⟨result, hrun, hresult⟩ := ih rfl hkept
      exact ⟨result, Option.bind_eq_some_iff.mpr ⟨_, hstep, hrun⟩, hresult⟩

/-- Ten bytes behind the limit are needed. -/
theorem exists_isOutOfInput (settings : Settings) (address : UInt64) :
    ∃ source, source.length = settings.lengthLimit + 9 ∧
      IsOutOfInput (decodeAt settings source address) := by
  have hlimit := settings.one_le_lengthLimit
  let run : List UInt8 := List.replicate (settings.lengthLimit - 1) 0xF0
  have hlength : run.length = settings.lengthLimit - 1 := List.length_replicate
  refine ⟨run ++ cutAddition, ?_, ?_⟩
  · rw [List.length_append, hlength]
    show settings.lengthLimit - 1 + 10 = settings.lengthLimit + 9
    omega
  · obtain ⟨prefixes, hrun, hrex, hsize⟩ := Prefixes.run?_replicate_lock settings.rexPolicy
      (rfl : Prefixes.rex {} = none) rfl (settings.lengthLimit - 1)
    let input := (Cursor.ofRegion (run ++ cutAddition) address).lookahead
    let between : Lookahead := { input with consumed := run.length, rest := cutAddition }
    have hreads : input.Reads run between := ⟨rfl, (Nat.zero_add _).symm, rfl, rfl⟩
    have hstop : prefixes.StopsAt settings.rexPolicy between.rest :=
      ⟨0x81, rfl, Prefixes.step?_eq_none_iff.mpr (.inl rfl)⟩
    have hroom : input.consumed + run.length < settings.lengthLimit := by
      show 0 + run.length < _
      omega
    have hscan : Prefixes.scan settings.rexPolicy settings.lengthLimit input =
        .ok (prefixes, between) :=
      Prefixes.scan_eq_ok_iff.mpr ⟨run, hroom, hrun, hstop, hreads⟩
    obtain ⟨bounds, hbody⟩ :=
      readBody_cutAddition settings.lengthLimit address hrex hsize (rfl : between.rest = _)
    rw [isOutOfInput_decodeAt_iff (List.append_ne_nil_of_right_ne_nil run (by decide)),
      readInstruction_eq_bind]
    exact ⟨bounds, bind_eq_error_iff.mpr (.inr ⟨prefixes, between, hscan, hbody⟩)⟩

/-- Decoding looks through a window that ends ten bytes behind the length limit. Nothing behind
it changes an outcome, a string that fills it never runs out of input, and no greater length
is reported as too long. The window cannot be smaller: for every limit there is a string one
byte short of it that runs out of input. Hence a block is decoded up to its last bytes, which
are fewer than the window has. -/
theorem decodeAt_window (settings : Settings) (source : List UInt8) (address : UInt64) :
    settings.lengthLimit = max 1 (min settings.maxLength 15) ∧
    decodeAt settings source address =
      decodeAt settings (source.take (min source.length (settings.lengthLimit + 10))) address ∧
    (settings.lengthLimit + 10 ≤ source.length →
      ¬ IsOutOfInput (decodeAt settings source address)) ∧
    (∀ cursor failure length limit, (decode settings cursor).outcome = .error failure →
      failure.cause = .malformed (.tooLong length limit) →
      length ≤ settings.lengthLimit + 10) ∧
    (∃ short, short.length = settings.lengthLimit + 9 ∧
      IsOutOfInput (decodeAt settings short address)) ∧
    source.length ≤ settledLength settings source address + (settings.lengthLimit + 9) := by
  refine ⟨rfl, ?_, not_isOutOfInput_of_le_length, ?_, exists_isOutOfInput settings address,
    (tiles_decodeAll settings source address).length_le_extent_settled⟩
  · rw [Nat.min_comm, ← List.take_take, List.take_length, decodeAt_take_window]
  · intro cursor failure length limit h hcause
    have hread := readInstruction_of_cause_eq_malformed h hcause
    exact (staysWithin_readInstruction settings cursor.address rfl).isWithin _ hread

/-- A LOCK prefix and an addition of eleven bytes fill the window of a limit of two bytes, and
their length is reported. -/
theorem decodeAt_window_locked_addition :
    ∃ source : List UInt8, source.length = 12 ∧ Settings.lengthLimit { maxLength := 2 } = 2 ∧
      decodeAt { maxLength := 2 } source 0x1000 =
        .error ⟨0x1000, .malformed (.tooLong 12 2)⟩ ∧
      ¬ IsOutOfInput (decodeAt { maxLength := 2 } source 0x1000) ∧
      12 ≤ Settings.lengthLimit { maxLength := 2 } + 10 := by
  let source : List UInt8 := 0xF0 :: cutAddition ++ [0x00]
  have hlong : decodeAt { maxLength := 2 } source 0x1000 =
      .error ⟨0x1000, .malformed (.tooLong 12 2)⟩ := rfl
  obtain ⟨-, -, hfull, hreported, -⟩ := decodeAt_window { maxLength := 2 } source 0x1000
  exact ⟨source, rfl, rfl, hlong, hfull (by decide),
    hreported (.ofRegion source 0x1000) _ 12 2 hlong rfl⟩

end LongMode
