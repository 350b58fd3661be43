import LongMode.Proofs.Faults

/-!
# Readings that agree in form

The bits R, X and B of a REX prefix extend register fields and decide nothing else: every
test of the form of an operand looks at the three bits of the field itself. Hence two
readings of the same bytes under different REX prefixes go through the same stages and
differ only in the high bits of register numbers. `Reader.Agree` compares two readers in
this way, and `agree_readBody` says that what follows the prefixes is read alike whenever
the prefixes have the same measure.
-/

namespace LongMode

namespace Reader

variable {α β γ δ : Type}

/-- Two results agree if both are the same fault, or if both are values that are related and
leave the same bytes to read. -/
inductive ResultsAgree (related : α → β → Prop) :
    Except Fault (α × Lookahead) → Except Fault (β × Lookahead) → Prop where
  | ok {value : α} {other : β} (after : Lookahead) (h : related value other) :
      ResultsAgree related (.ok (value, after)) (.ok (other, after))
  | error (fault : Fault) : ResultsAgree related (.error fault) (.error fault)

/-- Two readers agree if their results agree on every input. -/
def Agree (related : α → β → Prop) (first : Reader α) (second : Reader β) : Prop :=
  ∀ input, ResultsAgree related (first input) (second input)

variable {related : α → β → Prop} {behind : γ → δ → Prop}

theorem agree_pure {value : α} {other : β} (h : related value other) :
    Agree related (pure value) (pure other) :=
  fun input => .ok input h

/-- Where the first parts of two sequences agree, so do the sequences, if related values are
followed by readers that agree. -/
theorem ResultsAgree.bind {first : Reader α} {second : Reader β} {rest : α → Reader γ}
    {other : β → Reader δ} {input shifted : Lookahead}
    (h : ResultsAgree related (first input) (second shifted))
    (hrest : ∀ value found, related value found → Agree behind (rest value) (other found)) :
    ResultsAgree behind ((first >>= rest) input) ((second >>= other) shifted) := by
  rw [bind_apply, bind_apply]
  generalize first input = result at h
  generalize second shifted = found at h
  cases h with
  | ok after hrelated => exact hrest _ _ hrelated after
  | error fault => exact .error fault

theorem ResultsAgree.eq_error {result : Except Fault (α × Lookahead)} {fault : Fault}
    (h : ResultsAgree related result (.error fault : Except Fault (β × Lookahead))) :
    result = .error fault := by
  cases h
  rfl

theorem Agree.bind {first : Reader α} {second : Reader β} {rest : α → Reader γ}
    {other : β → Reader δ} (h : Agree related first second)
    (hrest : ∀ value found, related value found → Agree behind (rest value) (other found)) :
    Agree behind (first >>= rest) (second >>= other) :=
  fun input => (h input).bind hrest

/-- Sequences with one first part agree if what follows it does. -/
theorem agree_bind_self (first : Reader α) {rest : α → Reader γ} {other : α → Reader δ}
    (hrest : ∀ value, Agree behind (rest value) (other value)) :
    Agree behind (first >>= rest) (first >>= other) := by
  intro input
  rw [bind_apply, bind_apply]
  cases first input with
  | ok result => exact hrest result.1 result.2
  | error fault => exact .error fault

end Reader

open Reader

/-! ## Operands of the same form -/

namespace OperandByte

theorem low_eq_mod (byte : UInt8) : low byte = byte % 8 := by
  apply UInt8.toNat_inj.mp
  rw [toNat_low, UInt8.toNat_mod]
  rfl

/-- What extends a field does not reach its three low bits. -/
theorem extend_mod {field : UInt8} (hfield : field.toNat < 8) (bit : Bool) :
    extend field bit % 8 = field := by
  rw [← low_eq_mod]
  exact ((extend_eq_iff hfield).mp rfl).2.1

end OperandByte

/-- ModR/M fields that differ at most in the REX bits of their registers. -/
structure ModRM.SameForm (modrm other : ModRM) : Prop where
  mode_eq : modrm.mode = other.mode
  reg_mod_eq : modrm.reg % 8 = other.reg % 8
  rm_mod_eq : modrm.rm % 8 = other.rm % 8

namespace ModRM

variable {modrm other : ModRM}

/-- A byte has one form under all REX prefixes. -/
theorem sameForm_ofByte (byte : UInt8) (rex found : Rex) :
    (ofByte byte rex).SameForm (ofByte byte found) where
  mode_eq := rfl
  reg_mod_eq := by
    have hfield := OperandByte.toNat_middle_lt byte
    exact (OperandByte.extend_mod hfield rex.r).trans (OperandByte.extend_mod hfield found.r).symm
  rm_mod_eq := by
    have hfield := OperandByte.toNat_low_lt byte
    exact (OperandByte.extend_mod hfield rex.b).trans (OperandByte.extend_mod hfield found.b).symm

theorem SameForm.isRegister_eq (h : modrm.SameForm other) :
    modrm.isRegister = other.isRegister := by
  rw [isRegister, isRegister, h.mode_eq]

theorem SameForm.needsSib_eq (h : modrm.SameForm other) : modrm.needsSib = other.needsSib := by
  rw [needsSib, needsSib, OperandByte.low_eq_mod, OperandByte.low_eq_mod, h.mode_eq, h.rm_mod_eq]

theorem SameForm.isRipRelative_eq (h : modrm.SameForm other) :
    modrm.isRipRelative = other.isRipRelative := by
  rw [isRipRelative, isRipRelative, OperandByte.low_eq_mod, OperandByte.low_eq_mod, h.mode_eq,
    h.rm_mod_eq]

end ModRM

/-- SIB fields that differ at most in the REX bits of their registers. -/
structure Sib.SameForm (sib other : Sib) : Prop where
  scale_eq : sib.scale = other.scale
  index_mod_eq : sib.index % 8 = other.index % 8
  base_mod_eq : sib.base % 8 = other.base % 8

/-- A byte has one form under all REX prefixes. -/
theorem Sib.sameForm_ofByte (byte : UInt8) (rex found : Rex) :
    (ofByte byte rex).SameForm (ofByte byte found) where
  scale_eq := rfl
  index_mod_eq := by
    have hfield := OperandByte.toNat_middle_lt byte
    exact (OperandByte.extend_mod hfield rex.x).trans (OperandByte.extend_mod hfield found.x).symm
  base_mod_eq := by
    have hfield := OperandByte.toNat_low_lt byte
    exact (OperandByte.extend_mod hfield rex.b).trans (OperandByte.extend_mod hfield found.b).symm

theorem Sib.SameForm.isBaseless_eq {sib other : Sib} (h : sib.SameForm other) :
    sib.isBaseless = other.isBaseless := by
  rw [isBaseless, isBaseless, OperandByte.low_eq_mod, OperandByte.low_eq_mod, h.base_mod_eq]

/-- Operands that differ at most in the REX bits of their registers. -/
structure Addressing.SameForm (addressing other : Addressing) : Prop where
  modrm : addressing.modrm.SameForm other.modrm
  sib : Option.Rel Sib.SameForm addressing.sib other.sib
  displacementSize_eq : addressing.displacementSize = other.displacementSize
  ripRelative_eq : addressing.ripRelative = other.ripRelative
  registerDirect_eq : addressing.registerDirect = other.registerDirect

namespace Addressing

variable {modrm other : ModRM} {sib found : Option Sib}

theorem sameForm_ofRegister (h : modrm.SameForm other) :
    (ofRegister modrm).SameForm (ofRegister other) :=
  ⟨h, .none, rfl, rfl, rfl⟩

theorem memoryDisplacement_of_sameForm (hmodrm : modrm.SameForm other)
    (hsib : Option.Rel Sib.SameForm sib found) :
    memoryDisplacement modrm sib = memoryDisplacement other found := by
  unfold memoryDisplacement
  rw [hmodrm.mode_eq, hmodrm.isRipRelative_eq]
  cases hsib with
  | none => rfl
  | some hsib =>
      dsimp only
      rw [hsib.isBaseless_eq]

theorem sameForm_ofMemory (hmodrm : modrm.SameForm other)
    (hsib : Option.Rel Sib.SameForm sib found) :
    (ofMemory modrm sib).SameForm (ofMemory other found) :=
  ⟨hmodrm, hsib, memoryDisplacement_of_sameForm hmodrm hsib, hmodrm.isRipRelative_eq, rfl⟩

/-- The form of ModR/M decides whether an SIB byte is read. -/
theorem agree_readSib (h : modrm.SameForm other) (rex extension : Rex) :
    Agree (Option.Rel Sib.SameForm) (readSib modrm rex) (readSib other extension) := by
  unfold readSib
  rw [h.needsSib_eq]
  by_cases hsib : other.needsSib = true
  · rw [if_pos hsib, if_pos hsib]
    exact agree_bind_self _ fun byte => agree_pure (.some (Sib.sameForm_ofByte byte _ _))
  · rw [if_neg hsib, if_neg hsib]
    exact agree_pure .none

/-- Operands are read alike under all REX prefixes. -/
theorem agree_read (rex extension : Rex) (usage : ModRMUsage) :
    Agree (fun first second => first.1.SameForm second.1 ∧ first.2 = second.2)
      (Addressing.read rex usage) (Addressing.read extension usage) := by
  refine agree_bind_self _ fun byte => ?_
  have hmodrm := ModRM.sameForm_ofByte byte rex extension
  dsimp only
  rw [hmodrm.isRegister_eq]
  by_cases hregister :
      usage = .registerOnly ∨ (ModRM.ofByte byte extension).isRegister = true
  · rw [if_pos hregister, if_pos hregister]
    exact agree_pure ⟨sameForm_ofRegister hmodrm, rfl⟩
  · rw [if_neg hregister, if_neg hregister]
    refine (agree_readSib hmodrm rex extension).bind fun sib found hsib => ?_
    have hform := sameForm_ofMemory hmodrm hsib
    rw [hform.displacementSize_eq]
    exact agree_bind_self _ fun _ => agree_pure ⟨hform, rfl⟩

end Addressing

/-- The operands of an opcode are read alike under all prefixes. -/
theorem agree_readOperands (prefixes other : Prefixes) (usage : ModRMUsage) :
    Agree (fun first second =>
        Option.Rel Addressing.SameForm first.1 second.1 ∧ first.2 = second.2)
      (readOperands prefixes usage) (readOperands other usage) := by
  by_cases husage : usage = .absent
  · subst husage
    exact agree_pure ⟨.none, rfl⟩
  · rw [readOperands_of_ne_absent husage, readOperands_of_ne_absent husage]
    refine (Addressing.agree_read _ _ usage).bind fun first second h => ?_
    exact agree_pure ⟨.some h.1, h.2⟩

/-! ## Prefixes of the same measure -/

/-- Prefixes that lengths depend on in the same way. They may differ in the segment, in LOCK
and in the REX bits that extend registers. -/
structure Prefixes.SameMeasure (prefixes other : Prefixes) : Prop where
  operandSize_eq : prefixes.operandSize = other.operandSize
  addressSize_eq : prefixes.addressSize = other.addressSize
  repetition_eq : prefixes.repetition = other.repetition
  isSome_rex_eq : prefixes.rex.isSome = other.rex.isSome
  rexW_eq : prefixes.rexW = other.rexW
  count_eq : prefixes.count = other.count

namespace ImmediateKind

variable {prefixes other : Prefixes} {addressing found : Option Addressing}

theorem selectsTest_of_sameForm (h : Option.Rel Addressing.SameForm addressing found) :
    selectsTest addressing = selectsTest found := by
  cases h with
  | none => rfl
  | @some first second h =>
      show decide (OperandByte.low first.modrm.reg ≤ 1) =
        decide (OperandByte.low second.modrm.reg ≤ 1)
      rw [OperandByte.low_eq_mod, OperandByte.low_eq_mod, h.modrm.reg_mod_eq]

/-- The measure of the prefixes and the form of the operands decide the size of an
immediate. -/
theorem size_of_sameMeasure (kind : ImmediateKind) (hprefixes : prefixes.SameMeasure other)
    (haddressing : Option.Rel Addressing.SameForm addressing found) :
    kind.size prefixes addressing = kind.size other found := by
  have hwidth : prefixes.operandWidth = other.operandWidth := by
    rw [Prefixes.operandWidth, Prefixes.operandWidth, hprefixes.rexW_eq, hprefixes.operandSize_eq]
  unfold size operandSizedBytes fullWidthBytes
  rw [hwidth, hprefixes.addressSize_eq, hprefixes.operandSize_eq, hprefixes.repetition_eq,
    selectsTest_of_sameForm haddressing]

end ImmediateKind

/-- Instructions of one length and form, with the same displacement and immediate. They may
differ in the high bits of register numbers and in what prefixes of the same measure may. -/
structure Instruction.SameMeasure (instruction other : Instruction) : Prop where
  address_eq : instruction.address = other.address
  length_eq : instruction.length = other.length
  opcode_eq : instruction.opcode = other.opcode
  prefixes : instruction.prefixes.SameMeasure other.prefixes
  addressing : Option.Rel Addressing.SameForm instruction.addressing other.addressing
  displacement_eq : instruction.displacement = other.displacement
  immediate_eq : instruction.immediate = other.immediate

/-- Behind prefixes of the same measure, the same bytes are read as instructions of the same
measure or fail in the same way. -/
theorem agree_readBody (limit : Nat) (address : UInt64) {prefixes other : Prefixes}
    (h : prefixes.SameMeasure other) :
    Agree Instruction.SameMeasure (readBody limit address prefixes)
      (readBody limit address other) := by
  refine agree_bind_self _ fun opcode => agree_bind_self _ fun layout => ?_
  refine agree_bind_self _ fun _ => (agree_readOperands prefixes other _).bind ?_
  intro ⟨addressing, displacement⟩ ⟨found, distance⟩ hoperands
  obtain ⟨haddressing, rfl⟩ : Option.Rel Addressing.SameForm addressing found ∧
    displacement = distance := hoperands
  have hsize := layout.immediate.size_of_sameMeasure h haddressing
  have himmediate : Immediate.read layout.immediate prefixes addressing =
      Immediate.read layout.immediate other found := by
    unfold Immediate.read
    rw [hsize]
  show Agree _ (Immediate.read layout.immediate prefixes addressing >>= _) _
  rw [himmediate]
  refine agree_bind_self _ fun immediate => agree_bind_self _ fun length => ?_
  by_cases hlong : limit < length
  · rw [if_pos hlong, if_pos hlong]
    exact fun _ => .error _
  · rw [if_neg hlong, if_neg hlong]
    exact agree_pure ⟨rfl, rfl, rfl, h, haddressing, rfl, rfl⟩

end LongMode
