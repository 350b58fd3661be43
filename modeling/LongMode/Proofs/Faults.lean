import LongMode.Proofs.Built
import LongMode.Proofs.Commit

/-!
# How decoding fails

Most stages of the decoder fail only by running out of bounds. The other faults come
from three places: the scan of the prefixes, the table entry of the opcode with the check
of POP, and the final comparison with the length limit. `Prefixes.scanFrom_eq_error` and
`readBody_eq_error` list them, and `outcome_eq_toFailure_iff` carries a fault that is not a
matter of bounds over to the outcome of the decode call.
-/

namespace LongMode

namespace Reader

variable {α β : Type}

/-- A sequence fails exactly when its first part does, or its second part after it. -/
theorem bind_eq_error_iff {first : Reader α} {second : α → Reader β} {input : Lookahead}
    {fault : Fault} :
    (first >>= second) input = .error fault ↔
      first input = .error fault ∨
        ∃ value between,
          first input = .ok (value, between) ∧ second value between = .error fault := by
  rw [bind_apply]
  cases first input with
  | error other => simp
  | ok result =>
      refine ⟨fun h => .inr ⟨result.1, result.2, rfl, h⟩, ?_⟩
      intro h
      obtain h | ⟨value, between, hresult, h⟩ := h
      · cases h
      · cases hresult
        exact h

/-- A reader that fails only by running out of bounds. -/
def OnlyRunsOut (reader : Reader α) : Prop :=
  ∀ input fault, reader input = .error fault → ∃ bounds, fault = .outOfBounds bounds

theorem onlyRunsOut_pure (value : α) : OnlyRunsOut (pure value : Reader α) := by
  intro input fault h
  cases h

theorem onlyRunsOut_ofRead (read : Lookahead → Except OutOfBounds (α × Lookahead)) :
    OnlyRunsOut (ofRead read) := by
  intro input fault h
  unfold ofRead at h
  cases hread : read input with
  | ok result =>
      rw [hread] at h
      cases h
  | error bounds =>
      rw [hread] at h
      cases h
      exact ⟨bounds, rfl⟩

theorem OnlyRunsOut.bind {first : Reader α} {second : α → Reader β} (hfirst : OnlyRunsOut first)
    (hsecond : ∀ value, OnlyRunsOut (second value)) : OnlyRunsOut (first >>= second) := by
  intro input fault h
  obtain h | ⟨value, between, -, h⟩ := bind_eq_error_iff.mp h
  · exact hfirst input fault h
  · exact hsecond value between fault h

theorem onlyRunsOut_ite {condition : Prop} [Decidable condition] {yes no : Reader α}
    (hyes : OnlyRunsOut yes) (hno : OnlyRunsOut no) :
    OnlyRunsOut (if condition then yes else no) := by
  split
  · exact hyes
  · exact hno

theorem onlyRunsOut_byte : OnlyRunsOut byte :=
  onlyRunsOut_ofRead _

end Reader

open Reader

/-! ## Stages that only run out of bounds -/

theorem Opcode.onlyRunsOut_read : OnlyRunsOut Opcode.read := by
  refine onlyRunsOut_byte.bind fun first => onlyRunsOut_ite (onlyRunsOut_pure _) ?_
  refine onlyRunsOut_byte.bind fun second => onlyRunsOut_ite ?_ (onlyRunsOut_ite ?_ ?_)
  · exact onlyRunsOut_byte.bind fun _ => onlyRunsOut_pure _
  · exact onlyRunsOut_byte.bind fun _ => onlyRunsOut_pure _
  · exact onlyRunsOut_pure _

theorem Addressing.onlyRunsOut_readDisplacement (size : DisplacementSize) :
    OnlyRunsOut (readDisplacement size) := by
  cases size with
  | absent => exact onlyRunsOut_pure _
  | byte => exact onlyRunsOut_byte.bind fun _ => onlyRunsOut_pure _
  | doubleword => exact (onlyRunsOut_ofRead _).bind fun _ => onlyRunsOut_pure _

theorem Addressing.onlyRunsOut_read (rex : Rex) (usage : ModRMUsage) :
    OnlyRunsOut (Addressing.read rex usage) := by
  refine onlyRunsOut_byte.bind fun byte => onlyRunsOut_ite (onlyRunsOut_pure _) ?_
  refine OnlyRunsOut.bind (onlyRunsOut_ite ?_ (onlyRunsOut_pure _)) fun sib => ?_
  · exact onlyRunsOut_byte.bind fun _ => onlyRunsOut_pure _
  · exact (onlyRunsOut_readDisplacement _).bind fun _ => onlyRunsOut_pure _

theorem onlyRunsOut_readOperands (prefixes : Prefixes) (usage : ModRMUsage) :
    OnlyRunsOut (readOperands prefixes usage) := by
  cases usage with
  | absent => exact onlyRunsOut_pure _
  | present | registerOnly =>
      exact (Addressing.onlyRunsOut_read _ _).bind fun _ => onlyRunsOut_pure _

theorem Immediate.onlyRunsOut_read (kind : ImmediateKind) (prefixes : Prefixes)
    (addressing : Option Addressing) : OnlyRunsOut (Immediate.read kind prefixes addressing) :=
  onlyRunsOut_ite (onlyRunsOut_pure _) ((onlyRunsOut_ofRead _).bind fun _ => onlyRunsOut_pure _)

/-! ## The faults of the decoder -/

/-- A scan fails where the bytes end, or where it has no room for another byte. -/
theorem Prefixes.scanFrom_eq_error {policy : RexPolicy} {limit room : Nat} {prefixes : Prefixes}
    {input : Lookahead} {fault : Fault}
    (h : scanFrom policy limit room prefixes input = .error fault) :
    (∃ bounds, fault = .outOfBounds bounds) ∨
      fault = .malformed (.tooLong (input.consumed + room + 1) limit) := by
  induction room generalizing prefixes input with
  | zero =>
      rw [scanFrom_zero] at h
      cases h
      exact .inr rfl
  | succ room ih =>
      cases hrest : input.rest with
      | nil =>
          rw [scanFrom_of_rest_eq_nil policy limit room prefixes hrest] at h
          cases h
          exact .inl ⟨_, rfl⟩
      | cons byte rest =>
          rw [scanFrom_of_rest_eq_cons policy limit room prefixes hrest] at h
          cases hstep : prefixes.step? policy byte with
          | none =>
              rw [hstep] at h
              cases h
          | some next =>
              rw [hstep] at h
              obtain hbounds | hlong := ih h
              · exact .inl hbounds
              · refine .inr ?_
                rw [hlong, show input.consumed + 1 + room + 1 = input.consumed + (room + 1) + 1 by
                  omega]

/-- The check of POP fails where the bytes end, or on a reg field other than 0. -/
theorem Opcode.checkPop_eq_error {opcode : Opcode} {input : Lookahead} {fault : Fault}
    (h : opcode.checkPop input = .error fault) :
    (∃ bounds, fault = .outOfBounds bounds) ∨
      (opcode = pop ∧ (∃ byte, input.rest.head? = some byte ∧ OperandByte.middle byte ≠ 0) ∧
        fault = .malformed (.unsupported pop.byte)) := by
  unfold checkPop at h
  by_cases hpop : opcode = pop
  · rw [if_pos hpop] at h
    obtain h | ⟨byte, between, hpeek, h⟩ := bind_eq_error_iff.mp h
    · exact .inl (onlyRunsOut_ofRead _ _ _ h)
    · obtain ⟨hhead, rfl⟩ := peek_eq_ok_iff.mp hpeek
      by_cases hreg : OperandByte.middle byte ≠ 0
      · rw [if_pos hreg] at h
        cases h
        exact .inr ⟨hpop, ⟨byte, hhead, hreg⟩, rfl⟩
      · rw [if_neg hreg] at h
        cases h
  · rw [if_neg hpop] at h
    cases h

/-- An opcode without a layout is refused for what it is and not for a length. -/
theorem Opcode.layout_ne_tooLong (opcode : Opcode) (length limit : Nat) :
    opcode.layout ≠ .error (.malformed (.tooLong length limit)) := by
  unfold Opcode.layout
  cases hkind : opcode.entry.kind <;> simp [hkind]

/-- Reads what follows the prefixes of an instruction of at most `limit` bytes. -/
def readBody (limit : Nat) (address : UInt64) (prefixes : Prefixes) : Reader Instruction := do
  let opcode ← Opcode.read
  let layout ← Reader.ofExcept opcode.layout
  opcode.checkPop
  let (addressing, displacement) ← readOperands prefixes layout.modrm
  let immediate ← Immediate.read layout.immediate prefixes addressing
  let length ← Reader.consumed
  if limit < length then Reader.fail (.malformed (.tooLong length limit))
  else pure { address, length, opcode, prefixes, addressing, displacement, immediate }

/-- An instruction is its prefixes and what follows them. Only the prefixes depend on the
REX policy. -/
theorem readInstruction_eq_bind (settings : Settings) (address : UInt64) :
    readInstruction settings address =
      Prefixes.scan settings.rexPolicy settings.lengthLimit >>=
        readBody settings.lengthLimit address :=
  rfl

/-- Behind the prefixes decoding fails where the bytes end, at the table entry of the opcode,
at the check of POP, or because the instruction is too long. -/
theorem readBody_eq_error {limit : Nat} {address : UInt64} {prefixes : Prefixes}
    {input : Lookahead} {fault : Fault}
    (h : readBody limit address prefixes input = .error fault) :
    (∃ bounds, fault = .outOfBounds bounds) ∨
    (∃ opcode after, Opcode.read input = .ok (opcode, after) ∧
      (opcode.layout = .error fault ∨
        (opcode = .pop ∧ (∃ byte, after.rest.head? = some byte ∧ OperandByte.middle byte ≠ 0) ∧
          fault = .malformed (.unsupported Opcode.pop.byte)))) ∨
    (∃ length, limit < length ∧ fault = .malformed (.tooLong length limit)) := by
  obtain h | ⟨opcode, l1, hopcode, h⟩ := bind_eq_error_iff.mp h
  · exact .inl (Opcode.onlyRunsOut_read _ _ h)
  obtain h | ⟨layout, l2, hlayout, h⟩ := bind_eq_error_iff.mp h
  · refine .inr (.inl ⟨opcode, l1, hopcode, .inl ?_⟩)
    cases hentry : opcode.layout with
    | ok layout =>
        rw [hentry] at h
        cases h
    | error other =>
        rw [hentry] at h
        cases h
        rfl
  obtain ⟨-, rfl⟩ := ofExcept_eq_ok_iff.mp hlayout
  obtain h | ⟨_, l3, -, h⟩ := bind_eq_error_iff.mp h
  · obtain hbounds | hpop := Opcode.checkPop_eq_error h
    · exact .inl hbounds
    · exact .inr (.inl ⟨opcode, l1, hopcode, .inr hpop⟩)
  obtain h | ⟨⟨addressing, displacement⟩, l4, -, h⟩ := bind_eq_error_iff.mp h
  · exact .inl (onlyRunsOut_readOperands _ _ _ _ h)
  obtain h | ⟨immediate, l5, -, h⟩ := bind_eq_error_iff.mp h
  · exact .inl (Immediate.onlyRunsOut_read _ _ _ _ _ h)
  obtain h | ⟨length, l6, -, h⟩ := bind_eq_error_iff.mp h
  · cases h
  by_cases hlong : limit < length
  · rw [if_pos hlong] at h
    cases h
    exact .inr (.inr ⟨length, hlong, rfl⟩)
  · rw [if_neg hlong] at h
    cases h

/-! ## The failures of decode calls -/

variable {settings : Settings} {cursor : Cursor}

/-- Where no byte is left there is no opcode to read. -/
theorem readInstruction_of_rest_eq_nil (settings : Settings) (address : UInt64)
    {input : Lookahead} (hfresh : input.consumed = 0) (h : input.rest = []) :
    readInstruction settings address input = .error (.outOfBounds (input.outOfBounds 1)) := by
  have hlimit := settings.one_le_lengthLimit
  obtain ⟨room, hroom⟩ : ∃ room, settings.lengthLimit = room + 1 :=
    ⟨settings.lengthLimit - 1, by omega⟩
  have hscan : Prefixes.scan settings.rexPolicy settings.lengthLimit input =
      .error (.outOfBounds (input.outOfBounds 1)) := by
    show Prefixes.scanFrom settings.rexPolicy settings.lengthLimit
      (settings.lengthLimit - input.consumed) {} input = _
    rw [hfresh, hroom]
    exact Prefixes.scanFrom_of_rest_eq_nil _ _ _ _ h
  rw [readInstruction_eq_bind, bind_apply, hscan]

/-- A failure that is not a matter of bounds tells its fault. -/
theorem Fault.IsDecisive.eq_of_toFailure_eq {fault other : Fault} (h : fault.IsDecisive)
    (heq : other.toFailure settings cursor = fault.toFailure settings cursor) :
    other = fault := by
  have hcause := congrArg Failure.cause heq
  cases fault with
  | outOfBounds bounds => exact absurd rfl (h bounds)
  | malformed reason =>
      cases other with
      | outOfBounds bounds =>
          simp only [Fault.toFailure] at hcause
          split at hcause <;> cases hcause
      | malformed found => exact congrArg Fault.malformed (Cause.malformed.inj hcause)
      | prefixConflict byte => cases hcause
  | prefixConflict byte =>
      cases other with
      | outOfBounds bounds =>
          simp only [Fault.toFailure] at hcause
          split at hcause <;> cases hcause
      | malformed reason => cases hcause
      | prefixConflict found =>
          exact congrArg Fault.prefixConflict (Cause.prefixConflict.inj hcause)

/-- A decode call fails for a reason other than bounds exactly when its reader does. -/
theorem outcome_eq_toFailure_iff {fault : Fault} (h : fault.IsDecisive) :
    (decode settings cursor).outcome = .error (fault.toFailure settings cursor) ↔
      readInstruction settings cursor.address cursor.lookahead = .error fault := by
  obtain ⟨hend, hdecode⟩ | ⟨other, -, hread, hdecode⟩ | ⟨found, after, -, hread, hdecode⟩ :=
    decode_cases settings cursor
  · rw [hdecode, readInstruction_of_rest_eq_nil settings _ rfl (Cursor.drop_region_of_isAtEnd hend)]
    refine ⟨?_, ?_⟩
    · intro heq
      have hcause := congrArg Failure.cause (Except.error.inj heq)
      cases fault with
      | outOfBounds bounds => exact absurd rfl (h bounds)
      | malformed reason => cases hcause
      | prefixConflict byte => cases hcause
    · intro heq
      exact absurd (Except.error.inj heq).symm (h _)
  · rw [hdecode, hread]
    refine ⟨?_, ?_⟩
    · intro heq
      rw [h.eq_of_toFailure_eq (Except.error.inj heq)]
    · intro heq
      rw [Except.error.inj heq]
  · rw [hdecode, hread]
    exact ⟨nofun, nofun⟩

/-- A decode call reports a malformed encoding only where its reader met one. -/
theorem readInstruction_of_cause_eq_malformed {failure : Failure} {reason : Malformation}
    (h : (decode settings cursor).outcome = .error failure)
    (hcause : failure.cause = .malformed reason) :
    readInstruction settings cursor.address cursor.lookahead = .error (.malformed reason) := by
  refine (outcome_eq_toFailure_iff (Fault.isDecisive_malformed reason)).mp ?_
  obtain ⟨address, cause⟩ := failure
  obtain rfl : cause = .malformed reason := hcause
  obtain rfl : address = cursor.address := (cursor_of_outcome_eq_error h).2
  exact h

end LongMode
