import LongMode.Decode
import LongMode.Proofs.OpcodeSpace
import LongMode.Proofs.Operands

/-!
# The language of instructions

`IsEncodedBy` describes the byte strings that stand for an instruction without
running the decoder: a run of prefixes with the recorded effects, and then the bytes
that the other fields write. `readInstruction_eq_ok_iff` says that the decoder reads
exactly these strings. Statements about decoded instructions are derived from it.
-/

namespace LongMode

namespace Instruction

/-- The fields of an instruction agree with the table entry of its opcode and with each
other. -/
structure WellFormed (instruction : Instruction) : Prop where
  defined : instruction.opcode.entry.kind = .defined
  operands :
    instruction.opcode.entry.modrm.Admits instruction.prefixes.rexOrClear
      instruction.addressing instruction.displacement
  immediate :
    instruction.opcode.entry.immediate.Admits instruction.prefixes instruction.addressing
      instruction.immediate
  /-- Any other reg field after the lead byte of POP belongs to another encoding family. -/
  pop : instruction.opcode = .pop →
    ∀ addressing ∈ instruction.addressing, OperandByte.low addressing.modrm.reg = 0

/-- `instruction.IsEncodedBy settings bytes` says that `bytes` is an encoding of the
instruction under the given settings. -/
structure IsEncodedBy (instruction : Instruction) (settings : Settings) (bytes : List UInt8) :
    Prop where
  wellFormed : instruction.WellFormed
  exists_run : ∃ run, bytes = run ++ instruction.body ∧
    Prefixes.run? settings.rexPolicy {} run = some instruction.prefixes
  length_eq : instruction.length = bytes.length
  length_le : instruction.length ≤ settings.lengthLimit

variable {instruction : Instruction}

/-- The bytes behind the prefixes are those of the opcode, the operands and the
immediate. -/
theorem body_eq (instruction : Instruction) :
    instruction.body =
      instruction.opcode.encoding ++
        (operandEncoding instruction.addressing instruction.displacement ++
          instruction.immediate.toList.flatMap Immediate.encoding) := by
  obtain ⟨address, length, opcode, prefixes, addressing, displacement, immediate⟩ := instruction
  cases addressing with
  | none => simp [body, operandEncoding, displacementEncoding]
  | some addressing =>
      cases displacement <;>
        simp [body, operandEncoding, displacementEncoding, DisplacementSize.encoding]

/-- The bytes behind the prefixes start with a byte that is no prefix. -/
theorem WellFormed.exists_body_eq_cons (h : instruction.WellFormed) :
    ∃ first rest, instruction.body = first :: rest ∧ isPrefixByte first = false := by
  obtain ⟨first, rest, hencoding, hfirst⟩ := Opcode.exists_encoding_eq_cons h.defined
  rw [body_eq, hencoding, List.cons_append]
  exact ⟨first, _, rfl, hfirst⟩

/-- The operands of POP start with a byte whose reg field is 0. -/
theorem WellFormed.exists_head?_operandEncoding (h : instruction.WellFormed)
    (hpop : instruction.opcode = .pop) :
    ∃ byte, (operandEncoding instruction.addressing instruction.displacement).head? = some byte ∧
      OperandByte.middle byte = 0 := by
  have hsome : instruction.addressing.isSome = true := by
    rw [h.operands.addressing_isSome_iff, hpop, Opcode.modrm_pop]
    decide
  obtain ⟨addressing, haddressing⟩ := Option.isSome_iff_exists.mp hsome
  refine ⟨addressing.modrm.toByte, ?_, ?_⟩
  · rw [haddressing]
    rfl
  · rw [ModRM.toByte, OperandByte.middle_join]
    exact h.pop hpop addressing haddressing

end Instruction

variable {settings : Settings} {address : UInt64} {input after : Lookahead}
  {instruction : Instruction}

/-- An instruction that was read is encoded by the bytes that were read for it. -/
theorem readInstruction_sound (hfresh : input.consumed = 0)
    (h : readInstruction settings address input = .ok (instruction, after)) :
    instruction.address = address ∧
      ∃ bytes, instruction.IsEncodedBy settings bytes ∧ input.Reads bytes after := by
  obtain ⟨prefixes, l1, hscan, h⟩ := Reader.bind_eq_ok_iff.mp h
  obtain ⟨opcode, l2, hopcode, h⟩ := Reader.bind_eq_ok_iff.mp h
  obtain ⟨layout, l3, hlayout, h⟩ := Reader.bind_eq_ok_iff.mp h
  obtain ⟨_, l4, hcheck, h⟩ := Reader.bind_eq_ok_iff.mp h
  obtain ⟨⟨addressing, displacement⟩, l5, hoperands, h⟩ := Reader.bind_eq_ok_iff.mp h
  obtain ⟨immediate, l6, himmediate, h⟩ := Reader.bind_eq_ok_iff.mp h
  obtain ⟨length, l7, hlength, h⟩ := Reader.bind_eq_ok_iff.mp h
  obtain ⟨run, -, hrun, -, hprefixes⟩ := Prefixes.scan_eq_ok_iff.mp hscan
  obtain ⟨-, hopcode⟩ := Opcode.read_eq_ok_iff.mp hopcode
  obtain ⟨hentry, rfl⟩ := Reader.ofExcept_eq_ok_iff.mp hlayout
  obtain ⟨hdefined, rfl⟩ := Opcode.layout_eq_ok_iff.mp hentry
  obtain ⟨hpop, rfl⟩ := Opcode.checkPop_eq_ok_iff.mp hcheck
  obtain ⟨hadmits, hoperands⟩ := readOperands_eq_ok_iff.mp hoperands
  obtain ⟨hkind, himmediate⟩ := Immediate.read_eq_ok_iff.mp himmediate
  obtain ⟨rfl, rfl⟩ := Reader.consumed_eq_ok_iff.mp hlength
  split at h
  · exact absurd h Reader.fail_ne_ok
  · rename_i hlimit
    obtain ⟨rfl, rfl⟩ := Reader.pure_eq_ok_iff.mp h
    have hreads := hprefixes.append (hopcode.append (hoperands.append himmediate))
    refine ⟨rfl, _, ⟨⟨hdefined, hadmits, hkind, ?_⟩, ⟨run, ?_, hrun⟩, ?_, ?_⟩, hreads⟩
    · intro heq found hfound
      -- The byte that the check of POP looked at is the ModR/M byte read afterwards.
      obtain ⟨byte, hhead, hzero⟩ := hpop heq
      obtain rfl : addressing = some found := hfound
      rw [hoperands.rest_eq] at hhead
      obtain rfl : found.modrm.toByte = byte := by
        simpa [operandEncoding, Addressing.encoding] using hhead
      rwa [ModRM.toByte, OperandByte.middle_join] at hzero
    · rw [Instruction.body_eq]
    · rw [hreads.consumed_eq, hfresh, Nat.zero_add]
    · exact Nat.not_lt.mp hlimit

/-- Every encoding of an instruction is read as the instruction. -/
theorem readInstruction_complete (hfresh : input.consumed = 0) {bytes : List UInt8}
    (haddress : instruction.address = address) (h : instruction.IsEncodedBy settings bytes)
    (hreads : input.Reads bytes after) :
    readInstruction settings address input = .ok (instruction, after) := by
  obtain ⟨run, rfl, hrun⟩ := h.exists_run
  obtain ⟨first, rest, hbody, hfirst⟩ := h.wellFormed.exists_body_eq_cons
  have hlength := h.length_eq
  have hle := h.length_le
  have hconsumed := hreads.consumed_eq
  obtain ⟨l1, hprefixes, hreads⟩ := Lookahead.reads_append_iff.mp hreads
  have hhead : l1.rest.head? = some first := by
    rw [hbody] at hreads
    exact hreads.head?_eq
  rw [Instruction.body_eq] at hreads
  obtain ⟨l2, hopcode, hreads⟩ := Lookahead.reads_append_iff.mp hreads
  obtain ⟨l3, hoperands, himmediate⟩ := Lookahead.reads_append_iff.mp hreads
  -- The opcode's first byte is no prefix, so the scan stops there under both policies.
  have hstop : instruction.prefixes.step? settings.rexPolicy first = none := by
    cases hstep : instruction.prefixes.step? settings.rexPolicy first with
    | none => rfl
    | some next => simp [Prefixes.isPrefixByte_of_step? hstep] at hfirst
  have hroom : input.consumed + run.length < settings.lengthLimit := by
    rw [hlength, hbody, List.length_append, List.length_cons] at hle
    omega
  refine Reader.bind_eq_ok_iff.mpr ⟨_, _, Prefixes.scan_eq_ok_iff.mpr
    ⟨run, hroom, hrun, ⟨first, hhead, hstop⟩, hprefixes⟩, ?_⟩
  refine Reader.bind_eq_ok_iff.mpr ⟨_, _, Opcode.read_eq_ok_iff.mpr
    ⟨Opcode.isReachable_of_defined h.wellFormed.defined, hopcode⟩, ?_⟩
  refine Reader.bind_eq_ok_iff.mpr ⟨_, _, Reader.ofExcept_eq_ok_iff.mpr
    ⟨Opcode.layout_eq_ok_iff.mpr ⟨h.wellFormed.defined, rfl⟩, rfl⟩, ?_⟩
  refine Reader.bind_eq_ok_iff.mpr ⟨(), _, Opcode.checkPop_eq_ok_iff.mpr ⟨?_, rfl⟩, ?_⟩
  · intro hpop
    obtain ⟨byte, hbyte, hzero⟩ := h.wellFormed.exists_head?_operandEncoding hpop
    refine ⟨byte, ?_, hzero⟩
    rw [hoperands.rest_eq, List.head?_append, hbyte]
    rfl
  refine Reader.bind_eq_ok_iff.mpr
    ⟨(_, _), _, readOperands_eq_ok_iff.mpr ⟨h.wellFormed.operands, hoperands⟩, ?_⟩
  refine Reader.bind_eq_ok_iff.mpr
    ⟨_, _, Immediate.read_eq_ok_iff.mpr ⟨h.wellFormed.immediate, himmediate⟩, ?_⟩
  refine Reader.bind_eq_ok_iff.mpr ⟨_, _, Reader.consumed_eq_ok_iff.mpr ⟨rfl, rfl⟩, ?_⟩
  have hsize : after.consumed = instruction.length := by
    rw [hconsumed, hfresh, Nat.zero_add, hlength]
  rw [if_neg (by omega)]
  refine Reader.pure_eq_ok_iff.mpr ⟨?_, rfl⟩
  rw [hsize, ← haddress]

/-- A fresh lookahead gives an instruction exactly when it starts with an encoding of
it. -/
theorem readInstruction_eq_ok_iff (hfresh : input.consumed = 0) :
    readInstruction settings address input = .ok (instruction, after) ↔
      instruction.address = address ∧
        ∃ bytes, instruction.IsEncodedBy settings bytes ∧ input.Reads bytes after := by
  refine ⟨readInstruction_sound hfresh, ?_⟩
  intro h
  obtain ⟨haddress, bytes, hencoded, hreads⟩ := h
  exact readInstruction_complete hfresh haddress hencoded hreads

end LongMode
