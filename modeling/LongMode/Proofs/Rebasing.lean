import LongMode.Proofs.Agreement
import LongMode.Proofs.Relocation

/-!
# Code at another address

The address of an instruction is written into its record and decides nothing.
`agree_readInstruction_add` compares the readings of the same bytes at two addresses, and
`decodeAt_add` says that the outcomes differ by the distance between them. Together with
`outcome_eq_decodeAt`, which removes the bytes in front of a position, this makes an outcome
a matter of the bytes from the position on.
-/

namespace LongMode

/-! ## Records at another address -/

/-- The instruction `distance` bytes further on, where addresses wrap. -/
def Instruction.moveBy (instruction : Instruction) (distance : UInt64) : Instruction :=
  { instruction with address := instruction.address + distance }

/-- The outcome for the same bytes `distance` bytes further on, where addresses wrap. -/
def Outcome.moveBy (outcome : Outcome) (distance : UInt64) : Outcome :=
  match outcome with
  | .ok instruction => .ok (instruction.moveBy distance)
  | .error failure => .error { failure with address := failure.address + distance }

/-- The instruction that follows moves along. -/
theorem Instruction.nextAddress_moveBy (instruction : Instruction) (distance : UInt64) :
    (instruction.moveBy distance).nextAddress = instruction.nextAddress + distance := by
  show instruction.address + distance + UInt64.ofNat instruction.length =
    instruction.address + UInt64.ofNat instruction.length + distance
  ac_rfl

/-- An operand that is addressed relative to the next instruction moves along. -/
theorem Instruction.ripTarget?_moveBy (instruction : Instruction) (distance : UInt64) :
    (instruction.moveBy distance).ripTarget? = instruction.ripTarget?.map (· + distance) := by
  have hrelative : (instruction.moveBy distance).isRipRelative = instruction.isRipRelative := rfl
  unfold ripTarget?
  rw [hrelative]
  by_cases h : instruction.isRipRelative = true
  · rw [if_pos h, if_pos h, nextAddress_moveBy]
    refine congrArg some ?_
    show instruction.nextAddress + distance + _ = instruction.nextAddress + _ + distance
    ac_rfl
  · rw [if_neg h, if_neg h]
    rfl

/-! ## Readings at another address -/

/-- The same bytes are read alike at every address, up to the address in the record. -/
theorem agree_readInstruction_add (settings : Settings) (address distance : UInt64) :
    Reader.Agree (fun instruction moved => moved = instruction.moveBy distance)
      (readInstruction settings address) (readInstruction settings (address + distance)) := by
  refine Reader.agree_bind_self _ fun prefixes => Reader.agree_bind_self _ fun opcode => ?_
  refine Reader.agree_bind_self _ fun layout => Reader.agree_bind_self _ fun _ => ?_
  refine Reader.agree_bind_self _ fun operands => Reader.agree_bind_self _ fun immediate => ?_
  refine Reader.agree_bind_self _ fun length => ?_
  by_cases hlong : settings.lengthLimit < length
  · rw [if_pos hlong, if_pos hlong]
    exact fun _ => .error _
  · rw [if_neg hlong, if_neg hlong]
    exact Reader.agree_pure rfl

/-- A fault means the same at every address, up to the address in the failure. -/
theorem Fault.toFailure_add (fault : Fault) (settings : Settings) (source : List UInt8)
    (address distance : UInt64) :
    fault.toFailure settings (.ofRegion source (address + distance)) =
      { fault.toFailure settings (.ofRegion source address) with
        address := (fault.toFailure settings (.ofRegion source address)).address + distance } := by
  unfold Fault.toFailure
  rw [Cursor.address_ofRegion, Cursor.address_ofRegion]
  rfl

/-- Moving bytes to another address moves the outcome. -/
theorem decodeAt_add (settings : Settings) (source : List UInt8) (address distance : UInt64) :
    decodeAt settings source (address + distance) =
      (decodeAt settings source address).moveBy distance := by
  by_cases hempty : source = []
  · subst hempty
    rw [decodeAt_nil, decodeAt_nil]
    rfl
  · have hlookahead : (Cursor.ofRegion source (address + distance)).lookahead =
        (Cursor.ofRegion source address).lookahead := rfl
    have hagree := agree_readInstruction_add settings address distance
      (Cursor.ofRegion source address).lookahead
    rw [decodeAt_of_ne_nil settings hempty, decodeAt_of_ne_nil settings hempty, hlookahead]
    generalize readInstruction settings address _ = result at hagree ⊢
    generalize readInstruction settings (address + distance) _ = moved at hagree ⊢
    cases hagree with
    | ok after hmoved =>
        subst hmoved
        rfl
    | error fault => exact congrArg Except.error (fault.toFailure_add settings source _ _)

/-- A decode call moves the cursor as far as a call on the remaining bytes alone does. -/
theorem position_decode_cursor (settings : Settings) {cursor : Cursor}
    (h : cursor.position ≤ cursor.capacity) :
    (decode settings cursor).cursor.position =
      cursor.position + (decode settings cursor.remainder).cursor.position := by
  have hsame : (decode settings cursor.remainder).outcome = (decode settings cursor).outcome :=
    (outcome_eq_decodeAt settings h).symm
  cases houtcome : (decode settings cursor).outcome with
  | ok instruction =>
      rw [houtcome] at hsame
      rw [cursor_of_outcome_eq_ok houtcome, cursor_of_outcome_eq_ok hsame,
        Cursor.position_remainder, Nat.zero_add]
  | error failure =>
      rw [houtcome] at hsame
      rw [(cursor_of_outcome_eq_error houtcome).1, (cursor_of_outcome_eq_error hsame).1]
      rfl

/-- Decoding depends neither on the position nor on the base. A call at a position of a
region gives the outcome of the remaining bytes alone at the address they live at, the numbers
of a truncation report included, and moves the cursor as far. The same bytes at an address
`distance` further on give the same outcome there: all that changes is the address, and with
it the address of the next instruction and the target of an operand that is addressed
relative to it. -/
theorem decode_placement (settings : Settings) (region : List UInt8) (base : UInt64)
    (position : Nat) (h : position ≤ region.length) :
    (decode settings { region, position, base }).outcome =
      decodeAt settings (region.drop position) (UInt64.ofNat (base.toNat + position)) ∧
    (decode settings { region, position, base }).cursor.position =
      position + (decode settings (.ofRegion (region.drop position)
        (UInt64.ofNat (base.toNat + position)))).cursor.position ∧
    ∀ (source : List UInt8) (address distance : UInt64),
      decodeAt settings source (address + distance) =
        (decodeAt settings source address).moveBy distance ∧
      ∀ instruction, decodeAt settings source address = .ok instruction →
        ∃ moved, decodeAt settings source (address + distance) = .ok moved ∧
          moved.address = instruction.address + distance ∧
          moved.nextAddress = instruction.nextAddress + distance ∧
          moved.ripTarget? = instruction.ripTarget?.map (· + distance) := by
  let cursor : Cursor := { region, position, base }
  have haddress : UInt64.ofNat (base.toNat + position) = cursor.address := by
    rw [UInt64.ofNat_add, UInt64.ofNat_toNat]
    rfl
  rw [haddress]
  have hposition : cursor.position ≤ cursor.capacity := h
  refine ⟨outcome_eq_decodeAt settings hposition, position_decode_cursor settings hposition, ?_⟩
  intro source address distance
  have hmoved := decodeAt_add settings source address distance
  refine ⟨hmoved, ?_⟩
  intro instruction hinstruction
  rw [hinstruction] at hmoved
  exact ⟨instruction.moveBy distance, hmoved, rfl, instruction.nextAddress_moveBy distance,
    instruction.ripTarget?_moveBy distance⟩

/-- A call that is cut off behind a NOP, where the address wraps to 0. -/
theorem decode_placement_wrapped_call :
    1 ≤ ([0x90, 0xE8, 0x01] : List UInt8).length ∧
    (decode { reportTruncation := true }
      { region := [0x90, 0xE8, 0x01], position := 1, base := 0xFFFFFFFFFFFFFFFF }).outcome =
      .error { address := 0, cause := .truncated 5 2 } := by
  have hposition : 1 ≤ ([0x90, 0xE8, 0x01] : List UInt8).length := by decide
  exact ⟨hposition, (decode_placement { reportTruncation := true } [0x90, 0xE8, 0x01]
    0xFFFFFFFFFFFFFFFF 1 hposition).1.trans rfl⟩

end LongMode
