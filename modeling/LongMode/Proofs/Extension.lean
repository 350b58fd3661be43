import LongMode.Proofs.Built
import LongMode.Proofs.RoundTrip

/-!
# More input never changes an outcome

A reader that did not run out of input does the same on every longer input. This is a
simulation between two runs: `Built.keepsRun` shows it of every reader that is put
together from elementary ones, and `decodeAt_append` draws the conclusion for decode
calls. With the language of instructions it follows how much of an instruction may be
cut off (`decodeAt_take`).
-/

namespace LongMode

/-- The lookahead over a region with more bytes at its end. -/
def Lookahead.extend (input : Lookahead) (extra : List UInt8) : Lookahead :=
  { input with capacity := input.capacity + extra.length, rest := input.rest ++ extra }

/-- A reading is the same when there are more bytes behind it. -/
theorem Lookahead.Reads.extend {input after : Lookahead} {bytes : List UInt8}
    (h : input.Reads bytes after) (extra : List UInt8) :
    (input.extend extra).Reads bytes (after.extend extra) where
  rest_eq := by
    show input.rest ++ extra = bytes ++ (after.rest ++ extra)
    rw [h.rest_eq, List.append_assoc]
  consumed_eq := h.consumed_eq
  start_eq := h.start_eq
  capacity_eq := by
    show after.capacity + extra.length = input.capacity + extra.length
    rw [h.capacity_eq]

namespace Reader

variable {α β : Type}

/-- The result of a reader over a region with more bytes at its end. -/
def extendResult (extra : List UInt8) :
    Except Fault (α × Lookahead) → Except Fault (α × Lookahead)
  | .ok (value, after) => .ok (value, after.extend extra)
  | .error fault => .error fault

/-- `reader.KeepsRun` says that a run which stays within bounds is the same on every
longer input. -/
def KeepsRun (reader : Reader α) : Prop :=
  ∀ input extra, (∃ bounds, reader input = .error (.outOfBounds bounds)) ∨
    reader (input.extend extra) = extendResult extra (reader input)

/-- A read of a lookahead fails only out of bounds, so it is enough that it is kept when
it succeeds. -/
theorem keepsRun_ofRead {read : Lookahead → Except OutOfBounds (α × Lookahead)}
    (h : ∀ {input after : Lookahead} {value : α} (extra : List UInt8),
      ofRead read input = .ok (value, after) →
      ofRead read (input.extend extra) = .ok (value, after.extend extra)) :
    KeepsRun (ofRead read) := by
  intro input extra
  cases hread : ofRead read input with
  | ok result => exact .inr (h extra hread)
  | error fault =>
      refine .inl ?_
      unfold ofRead at hread
      split at hread
      · cases hread
      · cases hread
        exact ⟨_, rfl⟩

theorem keepsRun_peek : KeepsRun peek := by
  refine keepsRun_ofRead ?_
  intro input after value extra h
  obtain ⟨hhead, rfl⟩ := peek_eq_ok_iff.mp h
  refine peek_eq_ok_iff.mpr ⟨?_, rfl⟩
  show (input.rest ++ extra).head? = some value
  rw [List.head?_append, hhead]
  rfl

theorem keepsRun_byte : KeepsRun byte := by
  refine keepsRun_ofRead ?_
  intro input after value extra h
  exact byte_eq_ok_iff.mpr ((byte_eq_ok_iff.mp h).extend extra)

theorem keepsRun_skipByte : KeepsRun skipByte := by
  refine keepsRun_ofRead ?_
  intro input after value extra h
  obtain ⟨first, hreads⟩ := skipByte_eq_ok_iff.mp h
  exact skipByte_eq_ok_iff.mpr ⟨first, hreads.extend extra⟩

theorem keepsRun_littleEndian {count : Nat} (hcount : count ≤ 8) :
    KeepsRun (littleEndian count) := by
  refine keepsRun_ofRead ?_
  intro input after value extra h
  obtain ⟨hsmall, hreads⟩ := (littleEndian_eq_ok_iff hcount).mp h
  exact (littleEndian_eq_ok_iff hcount).mpr ⟨hsmall, hreads.extend extra⟩

/-- A sequence is kept when both parts are. -/
theorem KeepsRun.bind {first : Reader α} {second : α → Reader β} (hfirst : KeepsRun first)
    (hsecond : ∀ value, KeepsRun (second value)) : KeepsRun (first >>= second) := by
  intro input extra
  rw [bind_apply, bind_apply]
  obtain ⟨bounds, hbounds⟩ | hsame := hfirst input extra
  · exact .inl ⟨bounds, by rw [hbounds]⟩
  · rw [hsame]
    -- The second part starts on the extended lookahead that the first one left.
    cases first input with
    | error fault => exact .inr rfl
    | ok result => exact hsecond result.1 result.2 extra

/-- Every reader that is put together from elementary ones is kept. -/
theorem Built.keepsRun {reader : Reader α} (h : Built reader) : KeepsRun reader := by
  induction h with
  | pure value => exact fun _ _ => .inr rfl
  | fail fault _ => exact fun _ _ => .inr rfl
  | consumed => exact fun _ _ => .inr rfl
  | peek => exact keepsRun_peek
  | byte => exact keepsRun_byte
  | skipByte => exact keepsRun_skipByte
  | littleEndian count hcount => exact keepsRun_littleEndian hcount
  | bind first second _ _ hfirst hsecond => exact hfirst.bind hsecond

end Reader

/-! ## Decode calls on longer inputs -/

/-- Whether a decode call ran out of input. -/
def IsOutOfInput (outcome : Outcome) : Prop :=
  ∃ failure, outcome = .error failure ∧
    (failure.cause = .endOfInput ∨ ∃ needed available, failure.cause = .truncated needed available)

theorem not_isOutOfInput_ok (instruction : Instruction) : ¬ IsOutOfInput (.ok instruction) := by
  intro h
  obtain ⟨failure, hfailure, -⟩ := h
  cases hfailure

/-- A fault that is not a matter of bounds means the same for every region. -/
theorem Fault.IsDecisive.toFailure_eq {fault : Fault} (h : fault.IsDecisive) (settings : Settings)
    {cursor other : Cursor} (haddress : cursor.address = other.address) :
    fault.toFailure settings cursor = fault.toFailure settings other := by
  cases fault with
  | outOfBounds bounds => exact absurd rfl (h bounds)
  | malformed reason => simp only [Fault.toFailure, haddress]
  | prefixConflict byte => simp only [Fault.toFailure, haddress]

/-- A call whose reader runs out of bounds runs out of input. -/
theorem isOutOfInput_toFailure (settings : Settings) (cursor : Cursor) (bounds : OutOfBounds) :
    IsOutOfInput (.error ((Fault.outOfBounds bounds).toFailure settings cursor)) := by
  refine ⟨_, rfl, ?_⟩
  cases hreport : settings.reportTruncation with
  | true => exact .inr ⟨_, _, if_pos hreport⟩
  | false => exact .inl (if_neg (by simp [hreport]))

/-- The lookahead at the start of a longer byte string is an extended one. -/
theorem Cursor.lookahead_ofRegion_append (source extra : List UInt8) (address : UInt64) :
    (Cursor.ofRegion (source ++ extra) address).lookahead =
      (Cursor.ofRegion source address).lookahead.extend extra := by
  simp [Cursor.lookahead, Cursor.ofRegion, Cursor.capacity, Lookahead.extend]

/-- A cursor at the start of a region is at its end only if the region is empty. -/
theorem Cursor.isAtEnd_ofRegion_eq_false_iff {region : List UInt8} {base : UInt64} :
    (Cursor.ofRegion region base).isAtEnd = false ↔ region ≠ [] := by
  cases region <;> simp [Cursor.isAtEnd, Cursor.ofRegion, Cursor.capacity]

/-- The decoder reads the same from a longer byte string, unless it ran out of bounds. -/
theorem readInstruction_append (settings : Settings) (source : List UInt8) (address : UInt64)
    (extra : List UInt8)
    (h : ∀ bounds, readInstruction settings address (Cursor.ofRegion source address).lookahead ≠
      .error (.outOfBounds bounds)) :
    readInstruction settings address (Cursor.ofRegion (source ++ extra) address).lookahead =
      Reader.extendResult extra
        (readInstruction settings address (Cursor.ofRegion source address).lookahead) := by
  rw [Cursor.lookahead_ofRegion_append]
  obtain ⟨bounds, hbounds⟩ | hsame := (built_readInstruction settings address).keepsRun
    (Cursor.ofRegion source address).lookahead extra
  · exact absurd hbounds (h bounds)
  · exact hsame

/-- Bytes behind an instruction, or behind the bytes that made it malformed, do not change
the outcome. -/
theorem decodeAt_append {settings : Settings} {source : List UInt8} {address : UInt64}
    (h : ¬ IsOutOfInput (decodeAt settings source address)) (extra : List UInt8) :
    decodeAt settings (source ++ extra) address = decodeAt settings source address := by
  have happend := readInstruction_append settings source address extra
  unfold decodeAt at h ⊢
  obtain ⟨-, hdecode⟩ | ⟨fault, hend, hread, hdecode⟩ | ⟨instruction, after, -, hread, hdecode⟩ :=
    decode_cases settings (.ofRegion source address)
  · rw [hdecode] at h
    exact absurd ⟨_, rfl, .inl rfl⟩ h
  · rw [hdecode] at h ⊢
    have hdecisive : fault.IsDecisive := by
      intro bounds hbounds
      rw [hbounds] at h
      exact h (isOutOfInput_toFailure _ _ _)
    have hlonger : (Cursor.ofRegion (source ++ extra) address).isAtEnd = false := by
      rw [Cursor.isAtEnd_ofRegion_eq_false_iff] at hend ⊢
      exact List.append_ne_nil_of_left_ne_nil hend extra
    rw [Cursor.address_ofRegion] at hread
    rw [hread] at happend
    have hfails := happend fun bounds hbounds => hdecisive bounds (Except.error.inj hbounds)
    have haddress : (Cursor.ofRegion (source ++ extra) address).address =
        (Cursor.ofRegion source address).address := by
      simp only [Cursor.address_ofRegion]
    rw [outcome_of_readInstruction_eq_error hlonger (by rwa [Cursor.address_ofRegion]),
      hdecisive.toFailure_eq settings haddress]
  · rw [hdecode]
    rw [Cursor.address_ofRegion] at hread
    rw [hread] at happend
    refine outcome_eq_ok_iff.mpr ⟨after.extend extra, ?_⟩
    rw [Cursor.address_ofRegion]
    exact happend nofun

/-- An instruction decodes from every string that starts with all of its bytes. -/
theorem decodeAt_take_of_length_le {settings : Settings} {source : List UInt8} {address : UInt64}
    {instruction : Instruction} (h : decodeAt settings source address = .ok instruction)
    {count : Nat} (hcount : instruction.length ≤ count) :
    decodeAt settings (source.take count) address = .ok instruction := by
  obtain ⟨haddress, bytes, rest, rfl, hencoded⟩ := decodeAt_eq_ok_iff.mp h
  refine decodeAt_eq_ok_iff.mpr ⟨haddress, bytes, rest.take (count - bytes.length), ?_, hencoded⟩
  rw [hencoded.length_eq] at hcount
  rw [List.take_append, List.take_of_length_le hcount]

/-- No instruction decodes from a string that is shorter than it. -/
theorem length_le_of_decodeAt {settings : Settings} {source : List UInt8} {address : UInt64}
    {instruction : Instruction} (h : decodeAt settings source address = .ok instruction) :
    instruction.length ≤ source.length := by
  obtain ⟨-, bytes, rest, rfl, hencoded⟩ := decodeAt_eq_ok_iff.mp h
  rw [hencoded.length_eq, List.length_append]
  omega

/-- Cutting a byte string short either makes the decoder run out of input or leaves the
outcome as it is. An instruction runs out of input exactly when one of its own bytes is
cut off, so no encoding starts with a shorter one. -/
theorem decodeAt_take (settings : Settings) (source : List UInt8) (address : UInt64)
    (count : Nat) :
    (IsOutOfInput (decodeAt settings (source.take count) address) ∨
      decodeAt settings (source.take count) address = decodeAt settings source address) ∧
    (∀ instruction, decodeAt settings source address = .ok instruction →
      (IsOutOfInput (decodeAt settings (source.take count) address) ↔
        count < instruction.length)) ∧
    (∀ first second, decodeAt settings (source.take count) address = .ok first →
      decodeAt settings source address = .ok second → second.length = source.length →
      source.take count = source) := by
  have hsame : IsOutOfInput (decodeAt settings (source.take count) address) ∨
      decodeAt settings (source.take count) address = decodeAt settings source address := by
    by_cases hout : IsOutOfInput (decodeAt settings (source.take count) address)
    · exact .inl hout
    · have happend := decodeAt_append hout (source.drop count)
      rw [List.take_append_drop] at happend
      exact .inr happend.symm
  have hcut : ∀ instruction, decodeAt settings source address = .ok instruction →
      (IsOutOfInput (decodeAt settings (source.take count) address) ↔
        count < instruction.length) := by
    intro instruction h
    refine ⟨?_, ?_⟩
    · intro hout
      -- With all of its bytes there the instruction would decode.
      refine Nat.lt_of_not_le fun hcount => ?_
      rw [decodeAt_take_of_length_le h hcount] at hout
      exact not_isOutOfInput_ok instruction hout
    · intro hcount
      refine hsame.resolve_right fun heq => ?_
      rw [h] at heq
      have hlength := length_le_of_decodeAt heq
      rw [List.length_take] at hlength
      omega
  refine ⟨hsame, hcut, ?_⟩
  intro first second hfirst hsecond hlength
  have hcount : ¬ count < second.length := by
    rw [← hcut second hsecond, hfirst]
    exact not_isOutOfInput_ok first
  exact List.take_of_length_le (by omega)

end LongMode
