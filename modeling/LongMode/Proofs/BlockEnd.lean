import LongMode.Proofs.Tiling
import Mathlib.Data.List.Chain

/-!
# Blocks and the failure that ends them

A walk over a region that makes decode calls until one of them runs out of input meets a
failure that `decodeAll` does not record when it gets through the whole block: that of the
call behind the last byte. `decodeToEnd` adds it. What is left of a block at a cursor then
goes on in one of three ways, and `Cursor.entriesToEnd_of_ok`, `Cursor.entriesToEnd_of_skip`
and `Cursor.entriesToEnd_of_stop` say how; walks are compared with `decodeAll` through them.
-/

namespace LongMode

/-- The outcome of a decode call behind the last byte of a block. -/
def endOfBlock (bytes : List UInt8) (address : UInt64) : Outcome :=
  .error { address := address + UInt64.ofNat bytes.length, cause := .endOfInput }

/-- The entries of a block, and the failure at its end when decoding gets there. -/
def decodeToEnd (settings : Settings) (bytes : List UInt8) (address : UInt64) : List Outcome :=
  let entries := decodeAll settings bytes address
  if entries.any fun entry => IsOutOfInput entry then entries
  else entries ++ [endOfBlock bytes address]

variable {settings : Settings} {bytes : List UInt8} {address : UInt64}

/-! ## Blocks by their first entry -/

theorem decodeAll_nil (settings : Settings) (address : UInt64) :
    decodeAll settings [] address = [] :=
  (tiles_decodeAll settings [] address).unique (.finished address)

theorem decodeAll_of_isOutOfInput (hne : bytes ≠ [])
    (hout : IsOutOfInput (decodeAt settings bytes address)) :
    decodeAll settings bytes address = [decodeAt settings bytes address] :=
  (tiles_decodeAll settings bytes address).unique (.stopped hne hout)

theorem decodeAll_of_not_isOutOfInput (hne : bytes ≠ [])
    (hin : ¬ IsOutOfInput (decodeAt settings bytes address)) :
    decodeAll settings bytes address =
      decodeAt settings bytes address ::
        decodeAll settings (bytes.drop (decodeAt settings bytes address).stride)
          (address + UInt64.ofNat (decodeAt settings bytes address).stride) :=
  (tiles_decodeAll settings bytes address).unique (.moved hne hin (tiles_decodeAll _ _ _))

/-- A call on nothing runs out of input. -/
theorem isOutOfInput_decodeAt_nil (settings : Settings) (address : UInt64) :
    IsOutOfInput (decodeAt settings [] address) := by
  rw [decodeAt_nil]
  exact ⟨_, rfl, .inl rfl⟩

/-- Where decoding runs out of input, that is the only entry. -/
theorem decodeToEnd_of_isOutOfInput (hout : IsOutOfInput (decodeAt settings bytes address)) :
    decodeToEnd settings bytes address = [decodeAt settings bytes address] := by
  by_cases hne : bytes = []
  · subst hne
    simp [decodeToEnd, decodeAll_nil, endOfBlock, decodeAt_nil]
  · simp [decodeToEnd, decodeAll_of_isOutOfInput hne hout, hout]

/-- Where decoding does not run out of input, the entries of what lies behind follow. -/
theorem decodeToEnd_of_not_isOutOfInput
    (hin : ¬ IsOutOfInput (decodeAt settings bytes address)) :
    decodeToEnd settings bytes address =
      decodeAt settings bytes address ::
        decodeToEnd settings (bytes.drop (decodeAt settings bytes address).stride)
          (address + UInt64.ofNat (decodeAt settings bytes address).stride) := by
  have hne : bytes ≠ [] := by
    intro hnil
    rw [hnil] at hin
    exact hin (isOutOfInput_decodeAt_nil settings address)
  have hstride := (stride_decodeAt hne hin).2
  -- The end of the block is where the end of what lies behind its first entry is.
  have hend : endOfBlock (bytes.drop (decodeAt settings bytes address).stride)
      (address + UInt64.ofNat (decodeAt settings bytes address).stride) =
        endOfBlock bytes address := by
    unfold endOfBlock
    rw [UInt64.add_assoc, ← UInt64.ofNat_add, List.length_drop, Nat.add_sub_cancel' hstride]
  unfold decodeToEnd
  rw [decodeAll_of_not_isOutOfInput hne hin, hend]
  simp only [List.any_cons, hin, decide_false, Bool.false_or, List.cons_append]
  split <;> rfl

theorem extent_append (before after : List Outcome) :
    extent (before ++ after) = extent before + extent after := by
  induction before with
  | nil => exact (Nat.zero_add _).symm
  | cons entry before ih => rw [List.cons_append, extent_cons, extent_cons, ih, Nat.add_assoc]

/-- Decoding does not move on after running out of input. -/
theorem stride_of_isOutOfInput {outcome : Outcome} (h : IsOutOfInput outcome) :
    outcome.stride = 0 := by
  obtain ⟨failure, rfl, -⟩ := id h
  rw [isOutOfInput_error_iff] at h
  simp [Outcome.stride, h]

/-- Decoding gets to the end of a block exactly when its entries cover it. -/
theorem decodeToEnd_eq (settings : Settings) (bytes : List UInt8) (address : UInt64) :
    decodeToEnd settings bytes address =
      decodeAll settings bytes address ++
        if extent (decodeAll settings bytes address) = bytes.length then [endOfBlock bytes address]
        else [] := by
  unfold decodeToEnd
  obtain ⟨hnone, hextent⟩ | ⟨before, last, heq, hlast, -, hextent⟩ :=
    (tiles_decodeAll settings bytes address).ends
  · rw [if_pos hextent]
    exact if_neg (by simpa using hnone)
  · have hshort : extent (decodeAll settings bytes address) ≠ bytes.length := by
      rw [heq, extent_append, extent_cons, stride_of_isOutOfInput hlast]
      exact Nat.ne_of_lt hextent
    rw [if_neg hshort, List.append_nil]
    exact if_pos (by simp [heq, hlast])

/-- The first entry is the outcome for the block itself. -/
theorem head?_decodeToEnd (settings : Settings) (bytes : List UInt8) (address : UInt64) :
    (decodeToEnd settings bytes address).head? = some (decodeAt settings bytes address) := by
  by_cases hout : IsOutOfInput (decodeAt settings bytes address)
  · rw [decodeToEnd_of_isOutOfInput hout]
    rfl
  · rw [decodeToEnd_of_not_isOutOfInput hout]
    rfl

/-- Every entry names the address where the one before it ends. -/
theorem isChain_decodeToEnd (settings : Settings) (bytes : List UInt8) (address : UInt64) :
    (decodeToEnd settings bytes address).IsChain fun entry following =>
      following.address = entry.address + UInt64.ofNat entry.stride := by
  have htiles := tiles_decodeAll settings bytes address
  generalize decodeAll settings bytes address = entries at htiles
  induction htiles with
  | finished address =>
      rw [decodeToEnd_of_isOutOfInput (isOutOfInput_decodeAt_nil settings address)]
      exact .singleton _
  | stopped hne hout =>
      rw [decodeToEnd_of_isOutOfInput hout]
      exact .singleton _
  | moved hne hin htail ih =>
      rw [decodeToEnd_of_not_isOutOfInput hin, List.isChain_cons, head?_decodeToEnd]
      refine ⟨?_, ih⟩
      intro following hfollowing
      obtain rfl := Option.some.inj hfollowing
      rw [address_decodeAt, address_decodeAt]

/-! ## Where a walk ends -/

/-- Entries that a test passes are the same with the failure at the end, which it does not
pass. -/
theorem takeWhile_decodeToEnd {passes : Outcome → Bool}
    (hend : passes (endOfBlock bytes address) = false) :
    (decodeToEnd settings bytes address).takeWhile passes =
      (decodeAll settings bytes address).takeWhile passes := by
  unfold decodeToEnd
  generalize decodeAll settings bytes address = entries
  dsimp only
  split
  · rfl
  · induction entries with
    | nil => simp [hend]
    | cons entry entries ih => simp_all [List.takeWhile_cons]

/-- The first entry of a kind that the failure at the end is of. -/
theorem getD_find?_decodeToEnd {ends : Outcome → Bool}
    (hend : ends (endOfBlock bytes address) = true) :
    ((decodeToEnd settings bytes address).find? ends).getD (endOfBlock bytes address) =
      ((decodeAll settings bytes address).find? ends).getD (endOfBlock bytes address) := by
  unfold decodeToEnd
  dsimp only
  split
  · rfl
  · rw [List.find?_append]
    cases (decodeAll settings bytes address).find? ends with
    | none => simp [hend]
    | some entry => rfl

/-! ## Entries from a cursor on -/

namespace Cursor

variable {cursor : Cursor} {instruction : Instruction} {failure : Failure}

/-- The entries from a cursor to the failure that ends them. -/
def entriesToEnd (cursor : Cursor) (settings : Settings) : List Outcome :=
  decodeToEnd settings (cursor.region.drop cursor.position) cursor.address

theorem entriesToEnd_forward (cursor : Cursor) (settings : Settings) (count : Nat) :
    (cursor.forward count).entriesToEnd settings =
      decodeToEnd settings ((cursor.region.drop cursor.position).drop count)
        (cursor.address + UInt64.ofNat count) := by
  rw [entriesToEnd, drop_region_forward, address_forward]

/-- The first entry from a cursor on is the outcome of the call there. -/
theorem head?_entriesToEnd (settings : Settings) (hposition : cursor.position ≤ cursor.capacity) :
    (cursor.entriesToEnd settings).head? = some (decode settings cursor).outcome := by
  rw [entriesToEnd, head?_decodeToEnd, outcome_eq_decodeAt settings hposition]

/-- A decoded instruction is followed by the entries behind it. -/
theorem entriesToEnd_of_ok (hposition : cursor.position ≤ cursor.capacity)
    (h : (decode settings cursor).outcome = .ok instruction) :
    cursor.entriesToEnd settings =
      .ok instruction :: (decode settings cursor).cursor.entriesToEnd settings := by
  have hcursor : (decode settings cursor).cursor = cursor.forward instruction.length :=
    cursor_of_outcome_eq_ok h
  rw [outcome_eq_decodeAt settings hposition] at h
  have hin : ¬ IsOutOfInput
      (decodeAt settings (cursor.region.drop cursor.position) cursor.address) := by
    rw [h]
    exact not_isOutOfInput_ok instruction
  rw [hcursor, entriesToEnd_forward, entriesToEnd, decodeToEnd_of_not_isOutOfInput hin, h]
  rfl

/-- A failure after which decoding may go on is followed by the entries from the next byte
on. -/
theorem entriesToEnd_of_skip (hposition : cursor.position ≤ cursor.capacity)
    (h : (decode settings cursor).outcome = .error failure)
    (hresume : failure.isResynchronizable = true) :
    cursor.entriesToEnd settings = .error failure :: (cursor.forward 1).entriesToEnd settings := by
  rw [outcome_eq_decodeAt settings hposition] at h
  have hin : ¬ IsOutOfInput
      (decodeAt settings (cursor.region.drop cursor.position) cursor.address) := by
    rw [h, isOutOfInput_error_iff, hresume]
    decide
  rw [entriesToEnd_forward, entriesToEnd, decodeToEnd_of_not_isOutOfInput hin, h, Outcome.stride,
    if_pos hresume]

/-- Any other failure is the last entry. -/
theorem entriesToEnd_of_stop (hposition : cursor.position ≤ cursor.capacity)
    (h : (decode settings cursor).outcome = .error failure)
    (hstop : failure.isResynchronizable = false) :
    cursor.entriesToEnd settings = [.error failure] := by
  rw [outcome_eq_decodeAt settings hposition] at h
  have hout : IsOutOfInput
      (decodeAt settings (cursor.region.drop cursor.position) cursor.address) := by
    rw [h, isOutOfInput_error_iff, hstop]
  rw [entriesToEnd, decodeToEnd_of_isOutOfInput hout, h]

/-- A decode call keeps its cursor within the region. -/
theorem position_decode_le (settings : Settings)
    (hposition : cursor.position ≤ cursor.capacity) :
    (decode settings cursor).cursor.position ≤ (decode settings cursor).cursor.capacity := by
  cases h : (decode settings cursor).outcome with
  | ok instruction =>
      obtain ⟨after, hread⟩ := outcome_eq_ok_iff.mp h
      have hlength : instruction.length ≤ cursor.capacity - cursor.position :=
        (length_of_readInstruction_le hread).2
      rw [cursor_of_outcome_eq_ok h]
      show cursor.position + instruction.length ≤ cursor.capacity
      omega
  | error failure =>
      rw [(cursor_of_outcome_eq_error h).1]
      exact hposition

/-- A failure after which decoding may go on has a byte to pass over. -/
theorem position_lt_of_isResynchronizable (hposition : cursor.position ≤ cursor.capacity)
    (h : (decode settings cursor).outcome = .error failure)
    (hresume : failure.isResynchronizable = true) : cursor.position < cursor.capacity := by
  refine position_lt_of_not_isAtEnd ?_ hposition
  intro hend
  rw [outcome_decode, if_pos hend] at h
  cases h
  cases hresume

end Cursor

end LongMode
