import LongMode.Proofs.CheckedDecoder
import LongMode.Proofs.ReadWindow
import LongMode.Proofs.SweepState

/-!
# No check fails

A checked lookahead sees the bytes that a lookahead has left to read (`Lookahead.view`), and as
long as it stands within a region of a size that regions have (`Lookahead.Fits`), its sums stay
far below the size of a word. `Meets` says that a checked reader then breaches nothing and does
what a reader does; it is kept by sequencing, so every stage meets its own. Only two checks need
more than that: the counter of prefixes, which the length limit bounds, and the sum in a
truncation report, which is bounded by how far the decoder looks. `checked_runs` concludes for
decode calls, blocks and sweeps.
-/

namespace LongMode.Checked

variable {α β ε : Type}

/-! ## Words -/

/-- After a check that holds the run goes on. -/
theorem ok_bind (value : α) (following : α → Except Breach β) :
    (Except.ok value >>= following) = following value :=
  rfl

theorem add_of_lt {first second : Nat} (h : first + second < 2 ^ 64) :
    add first second = .ok (first + second) :=
  if_pos h

theorem increment_of_lt {count : UInt8} (h : count.toNat < 255) :
    increment count = .ok (count + 1) :=
  if_pos (Nat.succ_lt_succ h)

/-- Shifting a number by a byte and putting a byte in its place appends the byte. -/
theorem toNat_shift_or (number : UInt64) (byte : UInt8) :
    ((number <<< (8 : UInt64)) ||| byte.toUInt64).toNat =
      (byte.toNat + 256 * number.toNat) % 2 ^ 64 := by
  have hsmall : byte.toNat < 2 ^ 8 := byte.toNat_lt
  have hbelow : number.toNat * 2 ^ 8 % 2 ^ 64 = 2 ^ 8 * (number.toNat % 2 ^ 56) := by omega
  rw [UInt64.toNat_or, UInt64.toNat_shiftLeft, UInt8.toNat_toUInt64]
  show number.toNat <<< 8 % 2 ^ 64 ||| byte.toNat = _
  rw [Nat.shiftLeft_eq, hbelow, ← Nat.two_pow_add_eq_or_of_lt hsmall]
  omega

/-- Bytes that are shifted in one after another make up their little-endian number. -/
theorem gather_eq (bytes : List UInt8) :
    Lookahead.gather bytes = UInt64.ofNat (LittleEndian.value bytes) := by
  unfold Lookahead.gather
  rw [List.foldl_reverse]
  induction bytes with
  | nil => rfl
  | cons byte rest ih =>
      apply UInt64.toNat_inj.mp
      rw [List.foldr_cons, ih, toNat_shift_or, UInt64.toNat_ofNat', UInt64.toNat_ofNat']
      show _ = (byte.toNat + 256 * LittleEndian.value rest) % 2 ^ 64
      omega

/-! ## Lookaheads -/

namespace Lookahead

variable {input : Lookahead}

/-- The lookahead stands within its region, which is not larger than regions are. -/
structure Fits (input : Lookahead) : Prop where
  place_le : input.start + input.offset ≤ input.region.length
  length_lt : input.region.length < 2 ^ 63

/-- The lookahead with the bytes it has left to read. -/
def view (input : Lookahead) : LongMode.Lookahead where
  start := input.start
  consumed := input.offset
  capacity := input.region.length
  rest := input.region.drop (input.start + input.offset)

theorem Fits.add_place (h : input.Fits) :
    add input.start input.offset = .ok (input.start + input.offset) := by
  obtain ⟨hplace, hlength⟩ := h
  exact add_of_lt (by omega)

theorem Fits.outOfBounds_eq (h : input.Fits) (needed : Nat) :
    input.outOfBounds needed = .ok (input.view.outOfBounds needed) := by
  unfold outOfBounds
  rw [h.add_place]
  rfl

/-- Reading `count` bytes that are there keeps a lookahead within its region. -/
theorem Fits.forward (h : input.Fits) {count : Nat}
    (hcount : input.start + input.offset + count ≤ input.region.length) :
    Fits { input with offset := input.offset + count } where
  place_le := by
    rw [← Nat.add_assoc]
    exact hcount
  length_lt := h.length_lt

theorem view_forward (input : Lookahead) (count : Nat) :
    view { input with offset := input.offset + count } =
      { input.view with
        consumed := input.offset + count
        rest := input.view.rest.drop count } := by
  simp only [view, List.drop_drop, Nat.add_assoc]

theorem length_view_rest (input : Lookahead) :
    input.view.rest.length = input.region.length - (input.start + input.offset) :=
  List.length_drop

/-- A byte that is left to read lies within the region. -/
theorem place_lt_of_view_rest {byte : UInt8} {rest : List UInt8}
    (h : input.view.rest = byte :: rest) :
    input.start + input.offset + 1 ≤ input.region.length := by
  have hlength := length_view_rest input
  rw [h, List.length_cons] at hlength
  omega

end Lookahead

/-- `Follows result plain` says that a checked operation breached nothing and gave what `plain`
is, with the view of its own lookahead. -/
inductive Follows :
    Except Breach (Except ε (α × Lookahead)) → Except ε (α × LongMode.Lookahead) → Prop
  | ok (value : α) {last : Lookahead} (hfits : last.Fits) :
      Follows (.ok (.ok (value, last))) (.ok (value, last.view))
  | error (refusal : ε) : Follows (.ok (.error refusal)) (.error refusal)

namespace Lookahead.Fits

variable {input : Lookahead}

/-- Reading `count` bytes that are there moves both lookaheads on. -/
theorem follows_forward (h : input.Fits) (value : α) {count : Nat}
    (hcount : input.start + input.offset + count ≤ input.region.length) :
    Follows
      (.ok (.ok (value, { input with offset := input.offset + count })) :
        Except Breach (Except ε (α × Lookahead)))
      (.ok (value,
        { input.view with
          consumed := input.offset + count
          rest := input.view.rest.drop count })) := by
  rw [← view_forward]
  exact .ok value (h.forward hcount)

/-- The offset moves on over bytes that are there. -/
theorem add_offset (h : input.Fits) {count : Nat}
    (hcount : input.start + input.offset + count ≤ input.region.length) :
    add input.offset count = .ok (input.offset + count) := by
  have hlength := h.length_lt
  exact add_of_lt (by omega)

theorem peek_eq (h : input.Fits) :
    input.peek = .ok (input.view.peek.map fun byte => (byte, input)) := by
  have hbyte : input.region[input.start + input.offset]? = input.view.rest.head? :=
    List.head?_drop.symm
  unfold peek LongMode.Lookahead.peek
  rw [h.add_place, ok_bind, hbyte]
  cases input.view.rest with
  | nil =>
      rw [h.outOfBounds_eq]
      rfl
  | cons byte rest => rfl

theorem follows_peek (h : input.Fits) :
    Follows input.peek (input.view.peek.map fun byte => (byte, input.view)) := by
  rw [h.peek_eq]
  cases input.view.peek with
  | error bounds => exact .error bounds
  | ok byte => exact .ok byte h

theorem follows_next (h : input.Fits) : Follows input.next input.view.next := by
  unfold next
  rw [h.peek_eq]
  unfold LongMode.Lookahead.peek LongMode.Lookahead.next
  cases hrest : input.view.rest with
  | nil => exact .error _
  | cons byte rest =>
      have hplace := place_lt_of_view_rest hrest
      obtain rfl : input.view.rest.drop 1 = rest := by rw [hrest, List.drop_one, List.tail_cons]
      show Follows (add input.offset 1 >>= _) _
      rw [h.add_offset hplace]
      exact h.follows_forward byte hplace

/-- A slice is there exactly when as many bytes are left, and it is the first of them. -/
theorem slice?_eq (h : input.Fits) (count : Nat) :
    slice? input.region (input.start + input.offset) (input.start + input.offset + count) =
      if count ≤ input.view.rest.length then some (input.view.rest.take count) else none := by
  have hplace := h.place_le
  have hleft := length_view_rest input
  unfold slice?
  rw [Nat.add_sub_cancel_left]
  by_cases hcount : count ≤ input.view.rest.length
  · rw [if_pos hcount, if_pos (by omega)]
    rfl
  · rw [if_neg hcount, if_neg (by omega)]

theorem follows_readLittleEndian (h : input.Fits) {count : Nat} (hcount : count ≤ 8) :
    Follows (input.readLittleEndian count) (input.view.readLittleEndian count) := by
  have hplace := h.place_le
  have hlength := h.length_lt
  have hleft := length_view_rest input
  unfold readLittleEndian require
  rw [if_pos hcount, ok_bind, h.add_place, ok_bind, add_of_lt (by omega), ok_bind, h.slice?_eq]
  unfold LongMode.Lookahead.readLittleEndian LongMode.Lookahead.take
  by_cases hthere : count ≤ input.view.rest.length
  · have hstop : input.start + input.offset + count ≤ input.region.length := by omega
    rw [if_pos hthere]
    dsimp only
    rw [if_pos (List.length_take_of_le hthere), h.add_offset hstop, ok_bind, gather_eq]
    exact h.follows_forward _ hstop
  · have hshort : ¬ (input.view.rest.take count).length = count := by
      rw [List.length_take]
      omega
    rw [if_neg hthere]
    dsimp only
    rw [if_neg hshort, h.outOfBounds_eq]
    exact .error _

end Lookahead.Fits

/-! ## Readers -/

/-- `Meets checked plain` says that, within a region, a checked reader breaches nothing and
does what `plain` does. -/
def Meets (checked : Reader α) (plain : LongMode.Reader α) : Prop :=
  ∀ input : Lookahead, input.Fits → Follows (checked input) (plain input.view)

namespace Reader

theorem bind_apply (first : Reader α) (second : α → Reader β) (input : Lookahead) :
    (first >>= second) input = Except.bind (first input) fun
      | Except.ok (value, between) => second value between
      | Except.error fault => .ok (.error fault) := by
  show Except.bind (first input) _ = Except.bind (first input) _
  congr 1
  funext result
  rcases result with fault | ⟨value, between⟩ <;> rfl

/-- Behind a check that holds a reader goes on. -/
theorem check_bind (value : α) (following : α → Reader β) (input : Lookahead) :
    (check (.ok value) >>= following) input = following value input :=
  rfl

/-- A byte that is there can be passed over. -/
theorem pass_bind {input : Lookahead} (h : input.Fits) (following : Unit → Reader β)
    (hthere : input.start + input.offset + 1 ≤ input.region.length) :
    (pass >>= following) input = following () { input with offset := input.offset + 1 } := by
  have hlength := h.length_lt
  have hskip : input.skip 1 = .ok (.ok ((), { input with offset := input.offset + 1 })) := by
    unfold Lookahead.skip
    rw [h.add_place, ok_bind, add_of_lt (by omega), ok_bind, if_neg (by omega),
      h.add_offset hthere]
    rfl
  rw [bind_apply]
  unfold pass
  rw [hskip]
  rfl

end Reader

/-- What a sequence does is said by what its parts do. -/
theorem Follows.bind {first : Reader α} {second : α → Reader β} {plain : LongMode.Reader α}
    {following : α → LongMode.Reader β} {input : Lookahead}
    (hfirst : Follows (first input) (plain input.view))
    (hsecond : ∀ value, Meets (second value) (following value)) :
    Follows ((first >>= second) input) ((plain >>= following) input.view) := by
  rw [Reader.bind_apply, LongMode.Reader.bind_apply]
  generalize first input = result at hfirst
  generalize plain input.view = outcome at hfirst
  cases hfirst with
  | ok value hfits => exact hsecond value _ hfits
  | error fault => exact .error fault

namespace Meets

theorem bind {first : Reader α} {second : α → Reader β} {plain : LongMode.Reader α}
    {following : α → LongMode.Reader β} (hfirst : Meets first plain)
    (hsecond : ∀ value, Meets (second value) (following value)) :
    Meets (first >>= second) (plain >>= following) :=
  fun input hfits => (hfirst input hfits).bind hsecond

theorem ite {condition : Prop} [Decidable condition] {yes no : Reader α}
    {plainYes plainNo : LongMode.Reader α} (hyes : Meets yes plainYes) (hno : Meets no plainNo) :
    Meets (if condition then yes else no) (if condition then plainYes else plainNo) := by
  by_cases h : condition
  · rw [if_pos h, if_pos h]
    exact hyes
  · rw [if_neg h, if_neg h]
    exact hno

end Meets

theorem meets_pure (value : α) : Meets (pure value) (pure value) :=
  fun _ hfits => .ok value hfits

theorem meets_fail (fault : Fault) : Meets (Reader.fail fault : Reader α) (.fail fault) :=
  fun _ _ => .error fault

theorem meets_consumed : Meets Reader.consumed .consumed :=
  fun input hfits => .ok input.offset hfits

theorem meets_ofRead {read : Lookahead → Except Breach (ReadResult α)}
    {plain : LongMode.Lookahead → Except OutOfBounds (α × LongMode.Lookahead)}
    (h : ∀ input : Lookahead, input.Fits → Follows (read input) (plain input.view)) :
    Meets (.ofRead read) (.ofRead plain) := by
  intro input hfits
  have hread := h input hfits
  unfold Reader.ofRead LongMode.Reader.ofRead
  generalize read input = result at hread
  generalize plain input.view = outcome at hread
  cases hread with
  | ok value hlast => exact .ok value hlast
  | error bounds => exact .error (Fault.outOfBounds bounds)

theorem meets_peek : Meets Reader.peek .peek :=
  meets_ofRead fun _ hfits => hfits.follows_peek

theorem meets_byte : Meets Reader.byte .byte :=
  meets_ofRead fun _ hfits => hfits.follows_next

theorem meets_littleEndian {count : Nat} (hcount : count ≤ 8) :
    Meets (Reader.littleEndian count) (.littleEndian count) :=
  meets_ofRead fun _ hfits => hfits.follows_readLittleEndian hcount

/-! ## Stages -/

/-- A prefix that is absorbed and counted is a step of the run. -/
theorem step?_eq_absorb? (policy : RexPolicy) (prefixes : Prefixes) (byte : UInt8) :
    prefixes.step? policy byte =
      (absorb? policy prefixes byte).map fun absorbed =>
        { absorbed with count := prefixes.count + 1 } := by
  unfold Prefixes.step? absorb?
  cases LegacyPrefix.ofByte? byte with
  | some legacy =>
      by_cases hstop : prefixes.rex.isSome ∧ policy = .strict
      · simp only [if_pos hstop, Option.map_none]
      · simp only [if_neg hstop, Option.map_some, Prefixes.afterLegacy]
  | none =>
      by_cases hrex : Rex.isRex byte = true
      · simp only [if_pos hrex, Option.map_some, Prefixes.afterRex]
      · simp only [if_neg hrex, Option.map_none]

section

variable {policy : RexPolicy} {limit : Nat} {prefixes : Prefixes} {input : Lookahead}

/-- On a byte that is there, and with room for it, one round passes over it and counts it, or
stops in front of it. -/
theorem scanFrom_of_view_rest (hfits : input.Fits) (rounds : Nat) {byte : UInt8}
    {rest : List UInt8} (hrest : input.view.rest = byte :: rest) (hroom : input.offset < limit)
    (hcount : prefixes.count.toNat < 255) :
    scanFrom policy limit (rounds + 1) prefixes input =
      match prefixes.step? policy byte with
      | some next => scanFrom policy limit rounds next { input with offset := input.offset + 1 }
      | none => .ok (.ok (prefixes, input)) := by
  rw [scanFrom]
  show (if limit ≤ input.offset then _ else _ : Reader Prefixes) input = _
  rw [if_neg (Nat.not_le.mpr hroom), Reader.bind_apply, Reader.peek, Reader.ofRead,
    hfits.peek_eq, step?_eq_absorb?]
  unfold LongMode.Lookahead.peek
  rw [hrest]
  simp only [Except.map, Except.bind]
  cases absorb? policy prefixes byte with
  | none => rfl
  | some absorbed =>
      show (Reader.pass >>= _) input = _
      rw [Reader.pass_bind hfits _ (Lookahead.place_lt_of_view_rest hrest),
        increment_of_lt hcount, Reader.check_bind]
      rfl

/-- Where no byte is left, a round runs out of bounds. -/
theorem scanFrom_of_view_rest_nil (hfits : input.Fits) (rounds : Nat)
    (hrest : input.view.rest = []) (hroom : input.offset < limit) :
    scanFrom policy limit (rounds + 1) prefixes input =
      .ok (.error (.outOfBounds (input.view.outOfBounds 1))) := by
  rw [scanFrom]
  show (if limit ≤ input.offset then _ else _ : Reader Prefixes) input = _
  rw [if_neg (Nat.not_le.mpr hroom), Reader.bind_apply, Reader.peek, Reader.ofRead,
    hfits.peek_eq]
  unfold LongMode.Lookahead.peek
  rw [hrest]
  rfl

/-- Without room for another byte a round fails. -/
theorem scanFrom_of_le_offset (hfits : input.Fits) (rounds : Nat) (hroom : limit ≤ input.offset) :
    scanFrom policy limit (rounds + 1) prefixes input =
      .ok (.error (.malformed (.tooLong (input.offset + 1) limit))) := by
  have hplace := hfits.place_le
  have hlength := hfits.length_lt
  rw [scanFrom]
  show (if limit ≤ input.offset then _ else _ : Reader Prefixes) input = _
  rw [if_pos hroom, add_of_lt (by omega)]
  rfl

/-- A scan gets by with one round more than there is room for bytes, and its counter with eight
bits, as long as the count and the room are together below 256. -/
theorem follows_scanFrom {rounds room : Nat} (hfits : input.Fits)
    (hroom : room = limit - input.offset) (hrounds : room < rounds)
    (hcount : prefixes.count.toNat + room < 256) :
    Follows (scanFrom policy limit rounds prefixes input)
      (Prefixes.scanFrom policy limit room prefixes input.view) := by
  induction rounds generalizing room prefixes input with
  | zero => omega
  | succ rounds ih =>
      cases room with
      | zero =>
          rw [scanFrom_of_le_offset hfits rounds (by omega), Prefixes.scanFrom_zero]
          exact .error _
      | succ room =>
          cases hrest : input.view.rest with
          | nil =>
              rw [scanFrom_of_view_rest_nil hfits rounds hrest (by omega),
                Prefixes.scanFrom_of_rest_eq_nil _ _ _ _ hrest]
              exact .error _
          | cons byte rest =>
              rw [scanFrom_of_view_rest hfits rounds hrest (by omega) (by omega),
                Prefixes.scanFrom_of_rest_eq_cons _ _ _ _ hrest]
              cases hstep : prefixes.step? policy byte with
              | none => exact .ok prefixes hfits
              | some next =>
                  have hnext : next.count.toNat + room < 256 := by
                    rw [Prefixes.count_of_step? hstep, UInt8.toNat_add]
                    show (prefixes.count.toNat + 1) % 256 + room < 256
                    omega
                  have hleft : room = limit - (input.offset + 1) := by omega
                  have hforward := hfits.forward (Lookahead.place_lt_of_view_rest hrest)
                  have htail := ih hforward hleft (by omega) hnext
                  rw [Lookahead.view_forward, hrest] at htail
                  exact htail

end

theorem meets_scan (policy : RexPolicy) {limit : Nat} (hlimit : limit < 256) :
    Meets (scan policy limit) (Prefixes.scan policy limit) := by
  intro input hfits
  refine follows_scanFrom hfits rfl (Nat.lt_succ_of_le (Nat.sub_le _ _)) ?_
  show 0 + (limit - input.offset) < 256
  omega

theorem meets_readOpcode : Meets readOpcode Opcode.read := by
  refine meets_byte.bind fun first => .ite (meets_pure _) ?_
  refine meets_byte.bind fun second => .ite ?_ (.ite ?_ (meets_pure _))
  · exact meets_byte.bind fun third => meets_pure _
  · exact meets_byte.bind fun third => meets_pure _

/-- A table has an entry for every opcode byte. -/
theorem entry_eq (opcode : Opcode) : entry opcode = .ok opcode.entry := by
  have hbyte : opcode.byte.toNat < UInt8.size := opcode.byte.toNat_lt
  unfold entry table
  rw [List.getElem?_map, List.getElem?_range hbyte]
  show Except.ok (Opcode.entry ⟨opcode.map, UInt8.ofNat opcode.byte.toNat⟩) = _
  rw [UInt8.ofNat_toNat]

theorem meets_readLayout (opcode : Opcode) :
    Meets (readLayout opcode) (.ofExcept opcode.layout) := by
  intro input hfits
  unfold readLayout
  rw [entry_eq, Reader.check_bind]
  unfold Opcode.layout
  dsimp only
  cases opcode.entry.kind with
  | defined => exact meets_pure _ input hfits
  | prefixByte | unsupported | invalid | escape => exact meets_fail _ input hfits

theorem meets_checkPop (opcode : Opcode) : Meets (checkPop opcode) opcode.checkPop :=
  .ite (meets_peek.bind fun _ => .ite (meets_fail _) (meets_pure _)) (meets_pure _)

theorem meets_readSib (modrm : ModRM) (rex : Rex) :
    Meets (readSib modrm rex) (Addressing.readSib modrm rex) :=
  .ite (meets_byte.bind fun _ => meets_pure _) (meets_pure _)

theorem meets_readDisplacement (size : DisplacementSize) :
    Meets (readDisplacement size) (Addressing.readDisplacement size) := by
  cases size with
  | absent => exact meets_pure _
  | byte => exact meets_byte.bind fun _ => meets_pure _
  | doubleword => exact (meets_littleEndian (by omega)).bind fun _ => meets_pure _

theorem meets_readAddressing (rex : Rex) (usage : ModRMUsage) :
    Meets (readAddressing rex usage) (Addressing.read rex usage) := by
  refine meets_byte.bind fun byte => .ite (meets_pure _) ?_
  refine (meets_readSib _ rex).bind fun sib => ?_
  exact (meets_readDisplacement _).bind fun displacement => meets_pure _

theorem meets_readOperands (prefixes : Prefixes) (usage : ModRMUsage) :
    Meets (readOperands prefixes usage) (LongMode.readOperands prefixes usage) := by
  cases usage with
  | absent => exact meets_pure _
  | present | registerOnly => exact (meets_readAddressing _ _).bind fun _ => meets_pure _

theorem meets_readImmediate (kind : ImmediateKind) (prefixes : Prefixes)
    (addressing : Option Addressing) :
    Meets (readImmediate kind prefixes addressing) (Immediate.read kind prefixes addressing) :=
  .ite (meets_pure _)
    ((meets_littleEndian (kind.size_le_eight prefixes addressing)).bind fun _ => meets_pure _)

theorem meets_readInstruction (settings : Settings) (address : UInt64) :
    Meets (readInstruction settings address) (LongMode.readInstruction settings address) := by
  have hlimit : settings.lengthLimit ≤ 15 := settings.lengthLimit_le
  refine (meets_scan _ (by omega)).bind fun prefixes => ?_
  refine meets_readOpcode.bind fun opcode => ?_
  refine (meets_readLayout opcode).bind fun layout => ?_
  refine (meets_checkPop opcode).bind fun _ => ?_
  refine (meets_readOperands prefixes _).bind fun operands => ?_
  refine (meets_readImmediate _ prefixes _).bind fun immediate => ?_
  exact meets_consumed.bind fun length => .ite (meets_fail _) (meets_pure _)

/-! ## Decode calls -/

/-- The cursor stands within its region, which is not larger than regions are. -/
structure Stands (cursor : Cursor) : Prop where
  position_le : cursor.position ≤ cursor.capacity
  capacity_lt : cursor.capacity < 2 ^ 63

namespace Stands

variable {settings : Settings} {cursor : Cursor}

theorem remaining_eq (h : Stands cursor) : remaining cursor = .ok cursor.remaining :=
  if_pos h.position_le

theorem advance_eq (h : Stands cursor) (count : Nat) :
    advance cursor count = .ok (cursor.advance count) := by
  obtain ⟨hposition, hcapacity⟩ := h
  unfold advance Cursor.advance
  rw [remaining_eq ⟨hposition, hcapacity⟩, ok_bind]
  by_cases hcount : count ≤ cursor.remaining
  · rw [if_pos hcount, if_neg (Nat.not_lt.mpr hcount)]
    rw [Cursor.remaining] at hcount
    rw [add_of_lt (by omega)]
    rfl
  · rw [if_neg hcount, if_pos (Nat.not_le.mp hcount)]
    rfl

/-- The bytes that are reported missing lie at most 25 bytes behind the cursor. -/
theorem cause_eq (h : Stands cursor) {fault : Fault}
    (hfault : fault.IsWithin cursor.position (settings.lengthLimit + 10)) :
    cause settings cursor fault = .ok (fault.toFailure settings cursor).cause := by
  cases fault with
  | malformed reason => rfl
  | prefixConflict byte => rfl
  | outOfBounds bounds =>
      have hposition := h.position_le
      have hcapacity := h.capacity_lt
      have hlimit : settings.lengthLimit ≤ 15 := settings.lengthLimit_le
      have hstop : bounds.offset + bounds.needed ≤
          cursor.position + (settings.lengthLimit + 10) := hfault
      unfold cause Fault.toFailure
      cases settings.reportTruncation with
      | false => rfl
      | true =>
          dsimp only
          rw [if_pos rfl, if_pos rfl, add_of_lt (by omega), ok_bind, h.remaining_eq]
          rfl

theorem decode_eq (h : Stands cursor) (settings : Settings) :
    decode settings cursor = .ok (LongMode.decode settings cursor) := by
  have hread : Follows (readInstruction settings cursor.address (lookahead cursor))
      (LongMode.readInstruction settings cursor.address cursor.lookahead) :=
    meets_readInstruction settings cursor.address _ ⟨h.position_le, h.capacity_lt⟩
  unfold decode LongMode.decode
  dsimp only
  cases cursor.isAtEnd with
  | true => rfl
  | false =>
      rw [if_neg Bool.false_ne_true, if_neg Bool.false_ne_true]
      generalize readInstruction settings cursor.address (lookahead cursor) = result at hread
      cases hplain : LongMode.readInstruction settings cursor.address cursor.lookahead with
      | error fault =>
          have hwithin := (staysWithin_readInstruction settings cursor.address rfl).isWithin
            fault hplain
          rw [hplain] at hread
          cases hread
          rw [ok_bind]
          dsimp only
          rw [h.cause_eq hwithin]
          rfl
      | ok read =>
          rw [hplain] at hread
          cases hread with
          | ok instruction hlast =>
              rw [ok_bind]
              dsimp only
              rw [h.advance_eq, ok_bind]
              cases cursor.advance instruction.length with
              | error bounds => rfl
              | ok moved => rfl

/-- A decode call keeps its cursor within the region. -/
theorem decode (h : Stands cursor) (settings : Settings) :
    Stands (LongMode.decode settings cursor).cursor where
  position_le := Cursor.position_decode_le settings h.position_le
  capacity_lt := by
    rw [Cursor.capacity, (region_decode_cursor settings cursor).1]
    exact h.capacity_lt

/-- So does a move. -/
theorem advance (h : Stands cursor) {count : Nat} {moved : Cursor}
    (hmoved : cursor.advance count = .ok moved) : Stands moved := by
  obtain ⟨hcount, rfl⟩ := Cursor.advance_eq_ok_iff.mp hmoved
  have hposition := h.position_le
  rw [Cursor.remaining] at hcount
  refine ⟨?_, h.capacity_lt⟩
  show cursor.position + count ≤ cursor.capacity
  omega

end Stands

/-! ## Loops -/

theorem decodeSteps_eq (settings : Settings) {cursor : Cursor} (h : Stands cursor) :
    decodeSteps settings cursor = .ok (LongMode.decodeSteps settings cursor) := by
  fun_induction LongMode.decodeSteps settings cursor with
  | case1 cursor hend =>
      rw [decodeSteps, if_pos hend]
  | case2 cursor hend step instruction houtcome ih =>
      have hless : step.cursor.remaining < cursor.remaining := remaining_decode_lt houtcome
      rw [decodeSteps, if_neg hend, h.decode_eq, ok_bind, houtcome]
      dsimp only
      rw [dif_pos hless, ih (h.decode settings)]
      rfl
  | case3 cursor hend step failure houtcome hresume next hskip ih =>
      have hstep : Stands step.cursor := h.decode settings
      have hless : next.remaining < cursor.remaining := by
        have hleft := Cursor.remaining_of_advance hskip
        have hkept : step.cursor.remaining ≤ cursor.remaining := remaining_decode_le settings cursor
        omega
      rw [decodeSteps, if_neg hend, h.decode_eq, ok_bind, houtcome]
      dsimp only
      rw [if_pos hresume, hstep.advance_eq, ok_bind, hskip]
      dsimp only
      rw [dif_pos hless, ih (hstep.advance hskip)]
      rfl
  | case4 cursor hend step failure houtcome hresume bounds hskip =>
      have hstep : Stands step.cursor := h.decode settings
      rw [decodeSteps, if_neg hend, h.decode_eq, ok_bind, houtcome]
      dsimp only
      rw [if_pos hresume, hstep.advance_eq, ok_bind, hskip]
      rfl
  | case5 cursor hend step failure houtcome hfinal =>
      rw [decodeSteps, if_neg hend, h.decode_eq, ok_bind, houtcome]
      dsimp only
      rw [if_neg hfinal]
      rfl

/-! ## Sweeps -/

section

variable {settings : Settings} {region : List UInt8} {base : UInt64} {sweep : Sweep}

theorem stands_of_coherent (hregion : region.length < 2 ^ 63)
    (h : sweep.Coherent settings region base) : Stands sweep.cursor where
  position_le := h.position_le_capacity
  capacity_lt := by
    rw [Cursor.capacity, h.region_eq]
    exact hregion

theorem sizeBounds_eq (h : Stands sweep.cursor) : sizeBounds sweep = .ok sweep.sizeBounds := by
  unfold sizeBounds Sweep.sizeBounds
  rw [h.remaining_eq]
  cases sweep.stopped with
  | none => rfl
  | some failure => rfl

theorem next_eq (h : Stands sweep.cursor) : next sweep = .ok sweep.next := by
  unfold next Sweep.next
  rw [h.decode_eq]
  cases sweep.stopped with
  | some failure => rfl
  | none =>
      rw [ok_bind]
      dsimp only
      cases (LongMode.decode sweep.settings sweep.cursor).outcome with
      | ok instruction => rfl
      | error failure => rfl

theorem take_eq (hregion : region.length < 2 ^ 63) (count : Nat)
    (h : sweep.Coherent settings region base) :
    take count sweep = .ok (Sweep.take count sweep) := by
  induction count generalizing sweep with
  | zero => rfl
  | succ count ih =>
      have hafter := h.next
      rw [take, Sweep.take, next_eq (stands_of_coherent hregion h), ok_bind]
      rcases hnext : sweep.next with ⟨_ | instruction, after⟩
      · rfl
      · rw [hnext] at hafter
        dsimp only
        rw [ih hafter]
        rfl

theorem drain_eq (hregion : region.length < 2 ^ 63) (h : sweep.Coherent settings region base) :
    drain sweep = .ok sweep.drain := by
  have hafter := h.next
  fun_induction Sweep.drain sweep with
  | case1 sweep after hnext =>
      rw [drain, next_eq (stands_of_coherent hregion h), ok_bind, hnext]
      rfl
  | case2 sweep instruction after hnext following last hdrain ih =>
      have hless := Sweep.remaining_next_lt hnext
      rw [hnext] at hafter
      rw [drain, next_eq (stands_of_coherent hregion h), ok_bind, hnext]
      dsimp only
      rw [dif_pos hless, ih hafter hafter.next, hdrain]
      rfl

theorem serve_eq (hregion : region.length < 2 ^ 63) (h : sweep.Coherent settings region base)
    (request : Sweep.Request) : serve sweep request = .ok (sweep.serve request) := by
  have hstands := stands_of_coherent hregion h
  cases request with
  | next =>
      rw [serve, next_eq hstands]
      rfl
  | take count =>
      rw [serve, take_eq hregion count h]
      rfl
  | drain =>
      rw [serve, drain_eq hregion h]
      rfl
  | skip count =>
      rw [serve, hstands.advance_eq, ok_bind]
      show _ = Except.ok (sweep.settle (sweep.skip count))
      unfold Sweep.skip
      cases sweep.cursor.advance count with
      | ok moved => rfl
      | error bounds => rfl
  | seek position =>
      show _ = Except.ok (sweep.settle (sweep.seek position))
      rw [serve]
      unfold Sweep.seek
      cases sweep.cursor.seek position with
      | ok moved => rfl
      | error bounds => rfl

theorem serveAll_eq (hregion : region.length < 2 ^ 63) (h : sweep.Coherent settings region base)
    (requests : List Sweep.Request) : serveAll sweep requests = .ok (sweep.serveAll requests) := by
  induction requests generalizing sweep with
  | nil => rfl
  | cons request requests ih =>
      rw [serveAll, serve_eq hregion h, ok_bind]
      exact ih (h.serve request)

end

/-- Whatever the region, the base, the place in it and the settings, no check fails: neither in
a decode call, nor while a whole block is decoded, nor in a sweep, whatever is asked of it in
whatever order. The checked operations do what the decoder does. -/
theorem checked_runs (settings : Settings) (region : List UInt8) (base : UInt64) (position : Nat)
    (hregion : region.length < 2 ^ 63) (hposition : position ≤ region.length) :
    decode settings { region, position, base } =
      .ok (LongMode.decode settings { region, position, base }) ∧
    decodeAll settings region base = .ok (LongMode.decodeAll settings region base) ∧
    ∀ requests, ∃ sweep,
      (Cursor.sweep { region, position, base } settings).serveAll requests = sweep ∧
      serveAll (Cursor.sweep { region, position, base } settings) requests = .ok sweep ∧
      sizeBounds sweep = .ok sweep.sizeBounds ∧
      ∀ request, serve sweep request = .ok (sweep.serve request) := by
  have hstands : Stands { region, position, base } := ⟨hposition, hregion⟩
  have hblock : Stands (.ofRegion region base) := ⟨Nat.zero_le _, hregion⟩
  refine ⟨hstands.decode_eq settings, ?_, ?_⟩
  · unfold decodeAll
    rw [decodeSteps_eq settings hblock]
    rfl
  · intro requests
    have hcoherent : (Cursor.sweep { region, position, base } settings).Coherent settings region
      base := Sweep.coherent_of_position_le hposition
    have hreached := hcoherent.serveAll requests
    exact ⟨_, rfl, serveAll_eq hregion hcoherent requests,
      sizeBounds_eq (stands_of_coherent hregion hreached), serve_eq hregion hreached⟩

/-- A NOP and a call that is cut off, at the last address, with a length limit far above the
architectural one: the missing bytes are reported, the block ends with the report, and a sweep
that is drained, sent too far and sent back stands at the NOP again. -/
theorem checked_runs_cut_call :
    ([0x90, 0xE8] : List UInt8).length < 2 ^ 63 ∧
    1 ≤ ([0x90, 0xE8] : List UInt8).length ∧
    (decode { maxLength := 2 ^ 64 - 1, reportTruncation := true }
        { region := [0x90, 0xE8], position := 1, base := 0xFFFFFFFFFFFFFFFF }).map (·.outcome) =
      .ok (.error { address := 0, cause := .truncated 5 1 }) ∧
    (decodeAll { maxLength := 2 ^ 64 - 1, reportTruncation := true } [0x90, 0xE8]
        0xFFFFFFFFFFFFFFFF).map List.length = .ok 2 ∧
    (serveAll (Cursor.sweep
        { region := [0x90, 0xE8], position := 1, base := 0xFFFFFFFFFFFFFFFF }
        { maxLength := 2 ^ 64 - 1, reportTruncation := true }) [.drain, .skip 9, .seek 0]).map
      (fun sweep => (sweep.cursor.position, sweep.stopped)) = .ok (0, none) := by
  have hregion : ([0x90, 0xE8] : List UInt8).length < 2 ^ 63 := by decide
  have hposition : 1 ≤ ([0x90, 0xE8] : List UInt8).length := by decide
  obtain ⟨hdecode, hblock, hsweep⟩ := checked_runs
    { maxLength := 2 ^ 64 - 1, reportTruncation := true } [0x90, 0xE8] 0xFFFFFFFFFFFFFFFF 1
    hregion hposition
  obtain ⟨sweep, hreached, hserve, -, -⟩ := hsweep [.drain, .skip 9, .seek 0]
  refine ⟨hregion, hposition, ?_, ?_, ?_⟩
  · rw [hdecode]
    rfl
  · rw [hblock]
    decide +kernel
  · rw [hserve, ← hreached]
    decide +kernel

end LongMode.Checked
