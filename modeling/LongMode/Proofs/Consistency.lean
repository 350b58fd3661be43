import LongMode.Proofs.RoundTrip

/-!
# Decoded records are consistent

The fields of a decoded record were settled one after another while its bytes were read, and
the accessors of the record work some of them out again. `Instruction.WellFormed` says what
the fields have to do with each other; the lemmas here say what the accessors give for fields
of that kind, and `decode_consistent` puts both together for every record that decoding gives.
-/

namespace LongMode

/-! ## Registers of an operand -/

namespace Addressing

variable {addressing : Addressing} {rex : Rex} {usage : ModRMUsage}

/-- A memory operand has a base register unless it is addressed relative to the next
instruction or its SIB byte says so. -/
theorem baseRegister?_eq_none_iff (addressing : Addressing) :
    addressing.baseRegister? = none ↔
      addressing.registerDirect = true ∨ addressing.ripRelative = true ∨
        (addressing.modrm.mode = 0 ∧ ∃ sib ∈ addressing.sib, OperandByte.low sib.base = 5) := by
  unfold baseRegister?
  by_cases hother : addressing.registerDirect = true ∨ addressing.ripRelative = true
  · rw [if_pos hother]
    exact iff_of_true rfl (hother.imp_right .inl)
  · rw [if_neg hother]
    obtain ⟨hmemory, hrelative⟩ := not_or.mp hother
    cases addressing.sib with
    | none => simp [hmemory, hrelative]
    | some sib => simp [hmemory, hrelative, Sib.isBaseless]

/-- A memory operand has an index register exactly when its SIB byte names one. -/
theorem isSome_indexRegister?_iff (addressing : Addressing) :
    addressing.indexRegister?.isSome = true ↔ ∃ sib ∈ addressing.sib, sib.index ≠ 4 := by
  unfold indexRegister?
  cases addressing.sib with
  | none => simp
  | some sib =>
      by_cases hindex : sib.index = 4 <;> simp [Sib.indexRegister?, hindex]

/-- The base register of an operand is extended by REX.B, from whichever byte it comes. -/
theorem WellFormed.baseRegister?_fourth (h : addressing.WellFormed rex usage) {register : UInt8}
    (hregister : addressing.baseRegister? = some register) :
    OperandByte.fourth register = rex.b := by
  unfold baseRegister? at hregister
  by_cases hother : addressing.registerDirect = true ∨ addressing.ripRelative = true
  · rw [if_pos hother] at hregister
    cases hregister
  · rw [if_neg hother] at hregister
    cases hsib : addressing.sib with
    | none =>
        rw [hsib] at hregister
        cases hregister
        exact h.modrm.rm_fourth
    | some sib =>
        rw [hsib] at hregister
        dsimp only at hregister
        split at hregister
        · cases hregister
        · cases hregister
          exact (h.sib sib hsib).base_fourth

/-- The index register of an operand is extended by REX.X. -/
theorem WellFormed.indexRegister?_fourth (h : addressing.WellFormed rex usage) {register : UInt8}
    (hregister : addressing.indexRegister? = some register) :
    OperandByte.fourth register = rex.x := by
  obtain ⟨sib, hsib, hindex⟩ := Option.bind_eq_some_iff.mp hregister
  unfold Sib.indexRegister? at hindex
  split at hindex
  · cases hindex
  · cases hindex
    exact (h.sib sib hsib).index_fourth

end Addressing

/-! ## Addresses relative to the next instruction -/

namespace Instruction

variable {instruction : Instruction}

theorem isRipRelative_iff (instruction : Instruction) :
    instruction.isRipRelative = true ↔
      ∃ addressing ∈ instruction.addressing, addressing.ripRelative = true := by
  unfold isRipRelative
  cases instruction.addressing <;> simp

/-- A target address is there exactly for an operand that is addressed relative to the next
instruction. -/
theorem isSome_ripTarget?_iff (instruction : Instruction) :
    instruction.ripTarget?.isSome = true ↔
      ∃ addressing ∈ instruction.addressing, addressing.ripRelative = true := by
  rw [← isRipRelative_iff]
  unfold ripTarget?
  split <;> simp_all

/-- An operand that is addressed relative to the next instruction has a displacement. -/
theorem WellFormed.isSome_displacement (h : instruction.WellFormed)
    (hrelative : instruction.isRipRelative = true) : instruction.displacement.isSome = true := by
  obtain ⟨addressing, haddressing, hrip⟩ := (isRipRelative_iff instruction).mp hrelative
  have hwell := h.operands.addressing_wellFormed addressing haddressing
  obtain ⟨hmemory, hmode, -⟩ := hwell.ripRelative_iff.mp hrip
  rw [h.operands.displacement_isSome_iff]
  refine ⟨addressing, haddressing, ?_⟩
  rw [hwell.displacementSize_eq]
  simp [hmemory, hmode, hrip]

/-- A target address is as far from the next instruction as the displacement says. -/
theorem WellFormed.ripTarget?_eq (h : instruction.WellFormed) {target : UInt64}
    (htarget : instruction.ripTarget? = some target) :
    ∃ displacement, instruction.displacement = some displacement ∧
      target = instruction.nextAddress + displacement.toInt64.toUInt64 := by
  unfold ripTarget? at htarget
  by_cases hrelative : instruction.isRipRelative = true
  · obtain ⟨displacement, hdisplacement⟩ :=
      Option.isSome_iff_exists.mp (h.isSome_displacement hrelative)
    rw [if_pos hrelative, hdisplacement] at htarget
    cases htarget
    exact ⟨displacement, hdisplacement, rfl⟩
  · rw [if_neg hrelative] at htarget
    cases htarget

end Instruction

/-- Every record that decoding gives is consistent. Its opcode is defined, and its operand
fields are those that the table entry and the REX bits admit: the operand is a register, a SIB
byte follows, the address is relative, and a displacement of some size follows in exactly the
cases that mode, r/m and base fields name, and REX bits are the fourth bits of the register
fields. The accessors agree: there is a base register, an index register and a target address
exactly for operands of that form, extended and computed from the fields that were read. The
immediate has the size that the entry asks for under these prefixes and operands. -/
theorem decode_consistent {settings : Settings} {cursor : Cursor} {instruction : Instruction}
    (h : (decode settings cursor).outcome = .ok instruction) :
    instruction.opcode.entry.kind = .defined ∧
    (instruction.addressing.isSome = true ↔ instruction.opcode.entry.modrm ≠ .absent) ∧
    (∀ addressing, instruction.addressing = some addressing →
      addressing.WellFormed instruction.prefixes.rexOrClear instruction.opcode.entry.modrm ∧
      (addressing.baseRegister? = none ↔
        addressing.registerDirect = true ∨ addressing.ripRelative = true ∨
          (addressing.modrm.mode = 0 ∧ ∃ sib ∈ addressing.sib, OperandByte.low sib.base = 5)) ∧
      (∀ register, addressing.baseRegister? = some register →
        OperandByte.fourth register = instruction.prefixes.rexOrClear.b) ∧
      (addressing.indexRegister?.isSome = true ↔ ∃ sib ∈ addressing.sib, sib.index ≠ 4) ∧
      (∀ register, addressing.indexRegister? = some register →
        OperandByte.fourth register = instruction.prefixes.rexOrClear.x)) ∧
    (instruction.displacement.isSome = true ↔
      ∃ addressing, instruction.addressing = some addressing ∧
        addressing.displacementSize ≠ .absent) ∧
    (instruction.ripTarget?.isSome = true ↔
      ∃ addressing, instruction.addressing = some addressing ∧ addressing.ripRelative = true) ∧
    (∀ target, instruction.ripTarget? = some target →
      ∃ displacement, instruction.displacement = some displacement ∧
        target = instruction.nextAddress + displacement.toInt64.toUInt64) ∧
    (instruction.immediate.isSome = true ↔
      0 < instruction.opcode.entry.immediate.size instruction.prefixes instruction.addressing) ∧
    (∀ immediate, instruction.immediate = some immediate →
      immediate.size.toNat =
        instruction.opcode.entry.immediate.size instruction.prefixes instruction.addressing ∧
      immediate.value.toNat < 256 ^ immediate.size.toNat) := by
  obtain ⟨-, bytes, rest, -, hencoded⟩ := outcome_eq_ok_iff_isEncodedBy.mp h
  have hwell := hencoded.wellFormed
  refine ⟨hwell.defined, hwell.operands.addressing_isSome_iff, ?_,
    hwell.operands.displacement_isSome_iff, instruction.isSome_ripTarget?_iff,
    fun target => hwell.ripTarget?_eq, hwell.immediate.isSome_iff, ?_⟩
  · intro addressing haddressing
    have hform := hwell.operands.addressing_wellFormed addressing haddressing
    exact ⟨hform, addressing.baseRegister?_eq_none_iff, fun register => hform.baseRegister?_fourth,
      addressing.isSome_indexRegister?_iff, fun register => hform.indexRegister?_fourth⟩
  · intro immediate himmediate
    have hsize := hwell.immediate.size_eq immediate himmediate
    refine ⟨hsize, ?_⟩
    rw [hsize]
    exact hwell.immediate.value_lt immediate himmediate

/-- A load into an extended register from sixteen bytes before the next instruction: there is
no base register, and the target address is there with its displacement. -/
theorem decode_consistent_relative_load :
    ∃ instruction addressing,
      (decode {} ⟨[0x4C, 0x8B, 0x1D, 0xF0, 0xFF, 0xFF, 0xFF], 0, 0x1000⟩).outcome =
        .ok instruction ∧
      instruction.addressing = some addressing ∧
      addressing.ripRelative = true ∧
      addressing.baseRegister? = none ∧
      instruction.ripTarget? = some 0xFF7 ∧
      ∃ displacement, instruction.displacement = some displacement ∧
        0xFF7 = instruction.nextAddress + displacement.toInt64.toUInt64 := by
  refine ⟨_, _, rfl, rfl, rfl, ?_⟩
  obtain ⟨-, -, hoperand, -, -, htarget, -⟩ := @decode_consistent {}
    ⟨[0x4C, 0x8B, 0x1D, 0xF0, 0xFF, 0xFF, 0xFF], 0, 0x1000⟩ _ rfl
  obtain ⟨-, hbase, -⟩ := hoperand _ rfl
  exact ⟨hbase.mpr (.inr (.inl rfl)), rfl, htarget 0xFF7 rfl⟩

end LongMode
