import LongMode.Block
import LongMode.Proofs.Extension
import LongMode.Proofs.Relocation

/-!
# The entries of a block tile it

`Tiles` describes the entries of a block by themselves: each is the outcome of decoding
what the ones before it left over, and only running out of input ends them early.
`tiles_decodeAll` says that decoding a block gives such entries, and `Tiles.unique` that
there are no others, so statements about a block are proved by induction on `Tiles`.
`decodeAll_tiles` reads the description off in terms of offsets into the block.
-/

namespace LongMode

/-- How far decoding a block moves on after an outcome: past the instruction, or past one
byte where none can start. It does not move on after running out of input. -/
def Outcome.stride : Outcome → Nat
  | .ok instruction => instruction.length
  | .error failure => if failure.isResynchronizable then 1 else 0

/-- The address that an outcome names. -/
def Outcome.address : Outcome → UInt64
  | .ok instruction => instruction.address
  | .error failure => failure.address

/-- How many bytes of a block some entries cover. -/
def extent : List Outcome → Nat
  | [] => 0
  | entry :: entries => entry.stride + extent entries

@[simp]
theorem extent_nil : extent [] = 0 :=
  rfl

@[simp]
theorem extent_cons (entry : Outcome) (entries : List Outcome) :
    extent (entry :: entries) = entry.stride + extent entries :=
  rfl

/-- A failure is a matter of running out of input exactly when decoding may not go on. -/
theorem isOutOfInput_error_iff {failure : Failure} :
    IsOutOfInput (.error failure) ↔ failure.isResynchronizable = false := by
  obtain ⟨address, cause⟩ := failure
  cases cause <;> simp [IsOutOfInput, Failure.isResynchronizable]

instance (outcome : Outcome) : Decidable (IsOutOfInput outcome) :=
  match outcome with
  | .ok instruction => isFalse (not_isOutOfInput_ok instruction)
  | .error _ => decidable_of_iff _ isOutOfInput_error_iff.symm

/-- The entries that decoding a byte string gives: `Tiles settings bytes address entries`
says that each of `entries` is the outcome for the bytes that those before it left. -/
inductive Tiles (settings : Settings) : List UInt8 → UInt64 → List Outcome → Prop where
  /-- Nothing is left to decode. -/
  | finished (address : UInt64) : Tiles settings [] address []
  /-- An instruction starts in the bytes that are left and goes on behind them. -/
  | stopped {bytes : List UInt8} {address : UInt64} (hne : bytes ≠ [])
      (hout : IsOutOfInput (decodeAt settings bytes address)) :
      Tiles settings bytes address [decodeAt settings bytes address]
  /-- An instruction, or a byte where none can start, and then what lies behind it. -/
  | moved {bytes : List UInt8} {address : UInt64} {entries : List Outcome} (hne : bytes ≠ [])
      (hin : ¬ IsOutOfInput (decodeAt settings bytes address))
      (htail : Tiles settings (bytes.drop (decodeAt settings bytes address).stride)
        (address + UInt64.ofNat (decodeAt settings bytes address).stride) entries) :
      Tiles settings bytes address (decodeAt settings bytes address :: entries)

variable {settings : Settings} {bytes : List UInt8} {address : UInt64} {entries : List Outcome}

/-! ## Decoding a block gives a tiling -/

namespace Cursor

/-- The cursor `count` bytes further on, wherever that is. -/
def forward (cursor : Cursor) (count : Nat) : Cursor :=
  { cursor with position := cursor.position + count }

theorem drop_region_forward (cursor : Cursor) (count : Nat) :
    (cursor.forward count).region.drop (cursor.forward count).position =
      (cursor.region.drop cursor.position).drop count := by
  rw [List.drop_drop]
  rfl

theorem address_forward (cursor : Cursor) (count : Nat) :
    (cursor.forward count).address = cursor.address + UInt64.ofNat count := by
  show cursor.base + UInt64.ofNat (cursor.position + count) =
    cursor.base + UInt64.ofNat cursor.position + UInt64.ofNat count
  rw [UInt64.ofNat_add, UInt64.add_assoc]

end Cursor

/-- Decoding moves on by at least one byte and stays within the bytes that are left. -/
theorem stride_decodeAt (hne : bytes ≠ [])
    (hin : ¬ IsOutOfInput (decodeAt settings bytes address)) :
    0 < (decodeAt settings bytes address).stride ∧
      (decodeAt settings bytes address).stride ≤ bytes.length := by
  have hpos : 0 < bytes.length := List.length_pos_iff.mpr hne
  cases houtcome : decodeAt settings bytes address with
  | ok instruction =>
      obtain ⟨-, encoded, rest, -, hencoded⟩ := decodeAt_eq_ok_iff.mp houtcome
      exact ⟨hencoded.length_pos, length_le_of_decodeAt houtcome⟩
  | error failure =>
      rw [houtcome, isOutOfInput_error_iff, Bool.not_eq_false] at hin
      simp only [Outcome.stride, hin, if_true]
      omega

/-- Where a decode call fails before the end of the region there is a byte to pass over. -/
theorem advance_of_outcome_eq_error {cursor : Cursor} {failure : Failure}
    (hposition : cursor.position < cursor.capacity)
    (h : (decode settings cursor).outcome = .error failure) :
    (decode settings cursor).cursor.advance 1 = .ok (cursor.forward 1) := by
  rw [(cursor_of_outcome_eq_error h).1, Cursor.advance_eq_ok_iff]
  refine ⟨?_, rfl⟩
  show 1 ≤ cursor.capacity - cursor.position
  omega

/-- A decode call that does not run out of input is the first entry of a tiling, when the
bytes from the next cursor on are tiled. -/
theorem Tiles.moved_at {cursor : Cursor} (hposition : cursor.position < cursor.capacity)
    (hin : ¬ IsOutOfInput (decode settings cursor).outcome)
    (htail : ∀ next, next = cursor.forward (decode settings cursor).outcome.stride →
      next.position ≤ next.capacity →
      Tiles settings (next.region.drop next.position) next.address entries) :
    Tiles settings (cursor.region.drop cursor.position) cursor.address
      ((decode settings cursor).outcome :: entries) := by
  have hne := Cursor.drop_region_ne_nil hposition
  have htail := htail _ rfl
  rw [outcome_eq_decodeAt settings (Nat.le_of_lt hposition)] at hin htail ⊢
  rw [Cursor.drop_region_forward, Cursor.address_forward] at htail
  refine .moved hne hin (htail ?_)
  have hstride := (stride_decodeAt hne hin).2
  rw [List.length_drop] at hstride
  show cursor.position + _ ≤ cursor.region.length
  have hposition : cursor.position < cursor.region.length := hposition
  omega

/-- The decode calls that cover a region from a cursor on tile what remains of it. -/
theorem tiles_decodeSteps (settings : Settings) (cursor : Cursor)
    (hposition : cursor.position ≤ cursor.capacity) :
    Tiles settings (cursor.region.drop cursor.position) cursor.address
      ((decodeSteps settings cursor).map (·.outcome)) := by
  fun_induction decodeSteps settings cursor with
  | case1 cursor hend =>
      rw [Cursor.drop_region_of_isAtEnd hend]
      exact .finished _
  | case2 cursor hend step instruction houtcome ih =>
      have hposition := Cursor.position_lt_of_not_isAtEnd hend hposition
      refine .moved_at hposition ?_ ?_
      · rw [houtcome]
        exact not_isOutOfInput_ok instruction
      · intro next hnext hle
        have hcursor : step.cursor = next := by
          rw [hnext, houtcome]
          exact cursor_of_outcome_eq_ok houtcome
        rw [hcursor] at ih ⊢
        exact ih hle
  | case3 cursor hend step failure houtcome hresume next hskip ih =>
      have hposition := Cursor.position_lt_of_not_isAtEnd hend hposition
      refine .moved_at hposition ?_ ?_
      · rw [houtcome, isOutOfInput_error_iff, hresume]
        exact Bool.noConfusion
      · intro other hother hle
        rw [houtcome, Outcome.stride, if_pos hresume] at hother
        rw [advance_of_outcome_eq_error hposition houtcome, ← hother] at hskip
        cases hskip
        exact ih hle
  | case4 cursor hend step failure houtcome hresume bounds hskip =>
      -- The byte that no instruction starts at is always there to be passed over.
      have hlt := Cursor.position_lt_of_not_isAtEnd hend hposition
      rw [advance_of_outcome_eq_error hlt houtcome] at hskip
      cases hskip
  | case5 cursor hend step failure houtcome hresume =>
      have hposition := Cursor.position_lt_of_not_isAtEnd hend hposition
      have hout : IsOutOfInput (decode settings cursor).outcome := by
        rw [houtcome, isOutOfInput_error_iff]
        simpa using hresume
      rw [outcome_eq_decodeAt settings (Nat.le_of_lt hposition)] at hout
      show Tiles settings _ _ [(decode settings cursor).outcome]
      rw [outcome_eq_decodeAt settings (Nat.le_of_lt hposition)]
      exact .stopped (Cursor.drop_region_ne_nil hposition) hout

/-- Decoding a block gives a tiling of it. -/
theorem tiles_decodeAll (settings : Settings) (bytes : List UInt8) (address : UInt64) :
    Tiles settings bytes address (decodeAll settings bytes address) := by
  have htiles := tiles_decodeSteps settings (.ofRegion bytes address) (Nat.zero_le _)
  rwa [Cursor.address_ofRegion] at htiles

/-- A byte string has only one tiling. -/
theorem Tiles.unique {others : List Outcome} (h : Tiles settings bytes address entries)
    (hother : Tiles settings bytes address others) : entries = others := by
  induction h generalizing others with
  | finished address =>
      cases hother with
      | finished => rfl
      | stopped hne => exact absurd rfl hne
      | moved hne => exact absurd rfl hne
  | stopped hne hout =>
      cases hother with
      | finished => exact absurd rfl hne
      | stopped => rfl
      | moved _ hin => exact absurd hout hin
  | moved hne hin _ ih =>
      cases hother with
      | finished => exact absurd rfl hne
      | stopped _ hout => exact absurd hout hin
      | moved _ _ htail => rw [ih htail]

/-! ## Offsets of entries -/

/-- A tiling has at most as many entries as there are bytes. -/
theorem Tiles.length_le (h : Tiles settings bytes address entries) :
    entries.length ≤ bytes.length := by
  induction h with
  | finished => exact Nat.le_refl _
  | stopped hne => exact List.length_pos_iff.mpr hne
  | moved hne hin _ ih =>
      have hstride := stride_decodeAt hne hin
      rw [List.length_drop] at ih
      rw [List.length_cons]
      omega

/-- Every entry is the outcome at the offset where the entries before it end, and only the
last one may have run out of input. -/
theorem Tiles.entry_eq (h : Tiles settings bytes address entries) {index : Nat} {entry : Outcome}
    (hentry : entries[index]? = some entry) :
    extent (entries.take index) < bytes.length ∧
      entry = decodeAt settings (bytes.drop (extent (entries.take index)))
        (address + UInt64.ofNat (extent (entries.take index))) ∧
      (index + 1 < entries.length → ¬ IsOutOfInput entry) := by
  induction h generalizing index with
  | finished => simp at hentry
  | @stopped bytes address hne hout =>
      obtain ⟨rfl, rfl⟩ : index = 0 ∧ _ = entry := by
        cases index with
        | zero => simpa using hentry
        | succ index => simp at hentry
      exact ⟨List.length_pos_iff.mpr hne, by simp, by simp⟩
  | @moved bytes address entries hne hin htail ih =>
      cases index with
      | zero =>
          obtain rfl : _ = entry := by simpa using hentry
          exact ⟨List.length_pos_iff.mpr hne, by simp, fun _ => hin⟩
      | succ index =>
          have hentry : entries[index]? = some entry := by simpa using hentry
          obtain ⟨hlt, heq, hlast⟩ := ih hentry
          rw [List.length_drop] at hlt
          rw [List.drop_drop, UInt64.add_assoc, ← UInt64.ofNat_add] at heq
          rw [List.take_succ_cons, extent_cons, List.length_cons]
          exact ⟨by omega, heq, fun hmore => hlast (by omega)⟩

/-- The entries end where the bytes end, unless the last of them ran out of input. -/
theorem Tiles.ends (h : Tiles settings bytes address entries) :
    ((∀ entry ∈ entries, ¬ IsOutOfInput entry) ∧ extent entries = bytes.length) ∨
      ∃ before last, entries = before ++ [last] ∧ IsOutOfInput last ∧
        (∀ entry ∈ before, ¬ IsOutOfInput entry) ∧ extent before < bytes.length := by
  induction h with
  | finished => exact .inl ⟨by simp, rfl⟩
  | stopped hne hout => exact .inr ⟨[], _, rfl, hout, by simp, List.length_pos_iff.mpr hne⟩
  | moved hne hin _ ih =>
      have hstride := (stride_decodeAt hne hin).2
      rw [List.length_drop] at ih
      obtain ⟨hnone, hextent⟩ | ⟨before, last, rfl, hout, hnone, hextent⟩ := ih
      · refine .inl ⟨List.forall_mem_cons.mpr ⟨hin, hnone⟩, ?_⟩
        rw [extent_cons]
        omega
      · refine .inr ⟨_ :: before, last, rfl, hout, List.forall_mem_cons.mpr ⟨hin, hnone⟩, ?_⟩
        rw [extent_cons]
        omega

/-- An outcome names the address it was asked for. -/
theorem address_decodeAt (settings : Settings) (bytes : List UInt8) (address : UInt64) :
    (decodeAt settings bytes address).address = address := by
  have hstart := Cursor.address_ofRegion bytes address
  cases houtcome : decodeAt settings bytes address with
  | ok instruction => exact (decodeAt_eq_ok_iff.mp houtcome).1
  | error failure => exact (cursor_of_outcome_eq_error houtcome).2.trans hstart

/-- Decoding a block covers it without gaps and without overlaps. With the offset of an
entry being the sum of the strides before it, every entry is the outcome of a decode call
at its offset in the whole block and names that place, and every entry but the last can be
moved on from. The byte behind a failure of this kind is always there to go on with. The
entries end where the block ends, or the last of them ran out of input before that. -/
theorem decodeAll_tiles (settings : Settings) (block : List UInt8) (base : UInt64) :
    (decodeAll settings block base).length ≤ block.length ∧
    (∀ index entry offset, (decodeAll settings block base)[index]? = some entry →
      offset = extent ((decodeAll settings block base).take index) →
      offset < block.length ∧
      entry = (decode settings { region := block, position := offset, base }).outcome ∧
      entry.address.toNat = (base.toNat + offset) % 2 ^ 64 ∧
      (index + 1 < (decodeAll settings block base).length →
        ∀ failure, entry = .error failure → failure.isResynchronizable = true) ∧
      (∀ failure, entry = .error failure → failure.isResynchronizable = true →
        (decode settings { region := block, position := offset, base }).cursor.advance 1 =
          .ok { region := block, position := offset + 1, base })) ∧
    (((∀ entry ∈ decodeAll settings block base, ¬ IsOutOfInput entry) ∧
        extent (decodeAll settings block base) = block.length) ∨
      ∃ before last, decodeAll settings block base = before ++ [last] ∧ IsOutOfInput last ∧
        (∀ entry ∈ before, ¬ IsOutOfInput entry) ∧ extent before < block.length) := by
  have htiles := tiles_decodeAll settings block base
  refine ⟨htiles.length_le, ?_, htiles.ends⟩
  intro index entry offset hentry hoffset
  obtain ⟨hlt, heq, hlast⟩ := htiles.entry_eq hentry
  rw [← hoffset] at hlt heq
  let cursor : Cursor := { region := block, position := offset, base }
  have hposition : cursor.position < cursor.capacity := hlt
  have houtcome : entry = (decode settings cursor).outcome := by
    rw [outcome_eq_decodeAt settings (Nat.le_of_lt hposition)]
    exact heq
  refine ⟨hlt, houtcome, ?_, ?_, ?_⟩
  · rw [heq, address_decodeAt]
    exact Cursor.toNat_address cursor
  · intro hmore failure hfailure
    have hin := hlast hmore
    rw [hfailure, isOutOfInput_error_iff] at hin
    simpa using hin
  · intro failure hfailure _
    exact advance_of_outcome_eq_error hposition (houtcome.symm.trans hfailure)

end LongMode
