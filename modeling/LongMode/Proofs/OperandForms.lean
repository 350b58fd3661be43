import LongMode.Addressing

/-!
# Forms of operands

The operand fields that some bytes stand for. A field of four bits is compared with
the three bits in its byte and the REX bit above them through their values as
numbers. `ModRM.ofByte_eq_iff` and `Sib.ofByte_eq_iff` say that a byte and its
fields determine each other. A well-formed `Addressing` is a register form or a
memory form, and `WellFormed.eq_ofRegister` and `WellFormed.eq_ofMemory` say which
one it is.
-/

namespace LongMode

namespace OperandByte

/-- The bit that extends a field of three bits to four. -/
def fourth (field : UInt8) : Bool :=
  field &&& 8 != 0

theorem toNat_high (byte : UInt8) : (high byte).toNat = byte.toNat / 64 := by
  simp [high, Nat.shiftRight_eq_div_pow]

theorem toNat_low (byte : UInt8) : (low byte).toNat = byte.toNat % 8 := by
  simpa [low] using Nat.and_two_pow_sub_one_eq_mod byte.toNat 3

theorem toNat_middle (byte : UInt8) : (middle byte).toNat = byte.toNat / 8 % 8 := by
  rw [middle, ← low, toNat_low]
  simp [Nat.shiftRight_eq_div_pow]

theorem toNat_join (high middle low : UInt8) :
    (join high middle low).toNat =
      high.toNat % 4 * 64 + middle.toNat % 8 * 8 + low.toNat % 8 := by
  have hhigh : (high <<< (6 : UInt8)).toNat = 2 ^ 6 * (high.toNat % 4) := by
    simp [Nat.shiftLeft_eq]
    omega
  have hmiddle : (OperandByte.low middle <<< (3 : UInt8)).toNat = 2 ^ 3 * (middle.toNat % 8) := by
    simp [Nat.shiftLeft_eq, toNat_low]
    omega
  have hlow := toNat_low low
  rw [join, ← OperandByte.low, ← OperandByte.low, UInt8.toNat_or, UInt8.toNat_or, hhigh, hmiddle,
    hlow]
  -- The three fields do not overlap, so joining them is adding them.
  have hupper : 2 ^ 6 * (high.toNat % 4) ||| 2 ^ 3 * (middle.toNat % 8) =
      2 ^ 3 * (high.toNat % 4 * 8 + middle.toNat % 8) := by
    rw [← Nat.two_pow_add_eq_or_of_lt (by omega)]
    omega
  rw [hupper, ← Nat.two_pow_add_eq_or_of_lt (by omega)]
  omega

theorem toNat_extend {field : UInt8} (hfield : field.toNat < 8) (bit : Bool) :
    (extend field bit).toNat = field.toNat + 8 * bit.toNat := by
  have hbit : (bit.toUInt8 <<< (3 : UInt8)).toNat = 2 ^ 3 * bit.toNat := by
    cases bit <;> rfl
  rw [extend, UInt8.toNat_or, hbit, Nat.or_comm, ← Nat.two_pow_add_eq_or_of_lt (by omega)]
  omega

theorem toNat_fourth (field : UInt8) : (fourth field).toNat = field.toNat / 8 % 2 := by
  have h : ∀ bits : BitVec 8, (fourth ⟨bits⟩).toNat = bits.toNat / 8 % 2 := by decide +kernel
  exact h field.toBitVec

/-- A field of four bits is three bits with a fourth on top. -/
theorem extend_eq_iff {field extended : UInt8} (hfield : field.toNat < 8) {bit : Bool} :
    extend field bit = extended ↔
      extended < 16 ∧ low extended = field ∧ fourth extended = bit := by
  have hbit : fourth extended = bit ↔ extended.toNat / 8 % 2 = bit.toNat := by
    rw [← toNat_fourth]
    cases fourth extended <;> cases bit <;> decide
  have hlt : extended < 16 ↔ extended.toNat < 16 := UInt8.lt_iff_toNat_lt
  rw [hbit, hlt, ← UInt8.toNat_inj, ← UInt8.toNat_inj, toNat_extend hfield, toNat_low]
  have hle := bit.toNat_le
  refine ⟨?_, ?_⟩
  · intro h
    refine ⟨?_, ?_, ?_⟩ <;> omega
  · intro h
    obtain ⟨hlt, hlow, hbit⟩ := h
    omega

theorem toNat_middle_lt (byte : UInt8) : (middle byte).toNat < 8 := by
  rw [toNat_middle]
  omega

theorem toNat_low_lt (byte : UInt8) : (low byte).toNat < 8 := by
  rw [toNat_low]
  omega

theorem high_lt (byte : UInt8) : high byte < 4 := by
  have hbyte := byte.toNat_lt
  have h := toNat_high byte
  rw [UInt8.lt_iff_toNat_lt]
  show (high byte).toNat < 4
  omega

/-- A byte is joined from its fields, whatever extends them. -/
theorem join_extend (byte : UInt8) (middleBit lowBit : Bool) :
    join (high byte) (extend (middle byte) middleBit) (extend (low byte) lowBit) = byte := by
  apply UInt8.toNat_inj.mp
  have hbyte := byte.toNat_lt
  rw [toNat_join, toNat_extend (toNat_middle_lt byte), toNat_extend (toNat_low_lt byte),
    toNat_high, toNat_middle, toNat_low]
  omega

/-- Fields that fit are the fields of the byte they are joined to. -/
theorem high_join {first : UInt8} (hfirst : first < 4) (second third : UInt8) :
    high (join first second third) = first := by
  have hfirst : first.toNat < 4 := UInt8.lt_iff_toNat_lt.mp hfirst
  apply UInt8.toNat_inj.mp
  rw [toNat_high, toNat_join]
  omega

theorem middle_join (first second third : UInt8) :
    middle (join first second third) = low second := by
  apply UInt8.toNat_inj.mp
  rw [toNat_middle, toNat_join, toNat_low]
  omega

theorem low_join (first second third : UInt8) : low (join first second third) = low third := by
  apply UInt8.toNat_inj.mp
  rw [toNat_low, toNat_join, toNat_low]
  omega

end OperandByte

/-! ## ModR/M and SIB -/

/-- The fields that a ModR/M byte can have under the given REX bits. -/
structure ModRM.WellFormed (modrm : ModRM) (rex : Rex) : Prop where
  mode_lt : modrm.mode < 4
  reg_lt : modrm.reg < 16
  rm_lt : modrm.rm < 16
  reg_fourth : OperandByte.fourth modrm.reg = rex.r
  rm_fourth : OperandByte.fourth modrm.rm = rex.b

/-- The fields that an SIB byte can have under the given REX bits. -/
structure Sib.WellFormed (sib : Sib) (rex : Rex) : Prop where
  scale_lt : sib.scale < 4
  index_lt : sib.index < 16
  base_lt : sib.base < 16
  index_fourth : OperandByte.fourth sib.index = rex.x
  base_fourth : OperandByte.fourth sib.base = rex.b

open OperandByte in
/-- A byte has given ModR/M fields exactly when they fit and are written as that byte. -/
theorem ModRM.ofByte_eq_iff {byte : UInt8} {rex : Rex} {modrm : ModRM} :
    ofByte byte rex = modrm ↔ modrm.WellFormed rex ∧ modrm.toByte = byte := by
  refine ⟨?_, ?_⟩
  · intro h
    subst h
    obtain ⟨hreg, -, hregBit⟩ := (extend_eq_iff (toNat_middle_lt byte)).mp rfl
    obtain ⟨hrm, -, hrmBit⟩ := (extend_eq_iff (toNat_low_lt byte)).mp rfl
    exact ⟨⟨high_lt byte, hreg, hrm, hregBit, hrmBit⟩, join_extend byte rex.r rex.b⟩
  · intro h
    obtain ⟨h, rfl⟩ := h
    obtain ⟨mode, reg, rm⟩ := modrm
    have hreg := (extend_eq_iff (toNat_low_lt reg)).mpr ⟨h.reg_lt, rfl, h.reg_fourth⟩
    have hrm := (extend_eq_iff (toNat_low_lt rm)).mpr ⟨h.rm_lt, rfl, h.rm_fourth⟩
    simp only [ofByte, toByte, high_join h.mode_lt, middle_join, low_join, hreg, hrm]

open OperandByte in
/-- A byte has given SIB fields exactly when they fit and are written as that byte. -/
theorem Sib.ofByte_eq_iff {byte : UInt8} {rex : Rex} {sib : Sib} :
    ofByte byte rex = sib ↔ sib.WellFormed rex ∧ sib.toByte = byte := by
  refine ⟨?_, ?_⟩
  · intro h
    subst h
    obtain ⟨hindex, -, hindexBit⟩ := (extend_eq_iff (toNat_middle_lt byte)).mp rfl
    obtain ⟨hbase, -, hbaseBit⟩ := (extend_eq_iff (toNat_low_lt byte)).mp rfl
    exact ⟨⟨high_lt byte, hindex, hbase, hindexBit, hbaseBit⟩, join_extend byte rex.x rex.b⟩
  · intro h
    obtain ⟨h, rfl⟩ := h
    obtain ⟨scale, index, base⟩ := sib
    have hindex := (extend_eq_iff (toNat_low_lt index)).mpr ⟨h.index_lt, rfl, h.index_fourth⟩
    have hbase := (extend_eq_iff (toNat_low_lt base)).mpr ⟨h.base_lt, rfl, h.base_fourth⟩
    simp only [ofByte, toByte, high_join h.scale_lt, middle_join, low_join, hindex, hbase]

/-! ## Forms of operands -/

namespace Addressing

/-- The operand fields that can follow an opcode with the given use of ModR/M under the
given REX bits. -/
structure WellFormed (addressing : Addressing) (rex : Rex) (usage : ModRMUsage) : Prop where
  modrm : addressing.modrm.WellFormed rex
  registerDirect_iff :
    addressing.registerDirect = true ↔ addressing.modrm.mode = 3 ∨ usage = .registerOnly
  sib_isSome_iff :
    addressing.sib.isSome = true ↔
      addressing.registerDirect = false ∧ OperandByte.low addressing.modrm.rm = 4
  sib : ∀ sib ∈ addressing.sib, sib.WellFormed rex
  ripRelative_iff :
    addressing.ripRelative = true ↔
      addressing.registerDirect = false ∧ addressing.modrm.mode = 0 ∧
        OperandByte.low addressing.modrm.rm = 5
  displacementSize_eq :
    addressing.displacementSize =
      if addressing.registerDirect then .absent
      else if addressing.modrm.mode = 1 then .byte
      else if addressing.modrm.mode = 2 then .doubleword
      else if addressing.ripRelative ∨ ∃ sib ∈ addressing.sib, OperandByte.low sib.base = 5 then
        .doubleword
      else .absent

variable {addressing : Addressing} {rex : Rex} {usage : ModRMUsage}

/-- A register operand is well formed when its ModR/M fields are. -/
theorem wellFormed_ofRegister {modrm : ModRM} (hmodrm : modrm.WellFormed rex)
    (hform : usage = .registerOnly ∨ modrm.isRegister = true) :
    (ofRegister modrm).WellFormed rex usage where
  modrm := hmodrm
  registerDirect_iff := by
    simp only [ModRM.isRegister, beq_iff_eq] at hform
    simpa [ofRegister] using hform.symm
  sib_isSome_iff := by simp [ofRegister]
  sib := by simp [ofRegister]
  ripRelative_iff := by simp [ofRegister]
  displacementSize_eq := by simp [ofRegister]

/-- The displacement size of a memory operand, mode by mode. -/
theorem memoryDisplacement_eq {modrm : ModRM} (hmode : modrm.mode < 4) (hmemory : modrm.mode ≠ 3)
    {sib : Option Sib} (hsib : sib.isSome = true ↔ OperandByte.low modrm.rm = 4) :
    memoryDisplacement modrm sib =
      if modrm.mode = 1 then .byte
      else if modrm.mode = 2 then .doubleword
      else if modrm.isRipRelative ∨ ∃ found ∈ sib, OperandByte.low found.base = 5 then .doubleword
      else .absent := by
  have hmodes : modrm.mode = 0 ∨ modrm.mode = 1 ∨ modrm.mode = 2 := by
    have hlt : modrm.mode.toNat < 4 := UInt8.lt_iff_toNat_lt.mp hmode
    have hne : modrm.mode.toNat ≠ 3 := fun h => hmemory (UInt8.toNat_inj.mp h)
    simp only [← UInt8.toNat_inj]
    show modrm.mode.toNat = 0 ∨ modrm.mode.toNat = 1 ∨ modrm.mode.toNat = 2
    omega
  rcases hmodes with h | h | h
  · cases sib with
    | none => simp [memoryDisplacement, h]
    | some found =>
        have hlow : OperandByte.low modrm.rm = 4 := hsib.mp rfl
        simp [memoryDisplacement, h, ModRM.isRipRelative, hlow, Sib.isBaseless]
  · simp [memoryDisplacement, h]
  · simp [memoryDisplacement, h]

/-- A memory operand is well formed when its ModR/M and SIB fields are. -/
theorem wellFormed_ofMemory {modrm : ModRM} {sib : Option Sib} (hmodrm : modrm.WellFormed rex)
    (hform : ¬ (usage = .registerOnly ∨ modrm.isRegister = true))
    (hsome : sib.isSome = true ↔ modrm.needsSib = true)
    (hsib : ∀ found ∈ sib, found.WellFormed rex) :
    (ofMemory modrm sib).WellFormed rex usage := by
  obtain ⟨husage, hregister⟩ := not_or.mp hform
  have hmode : modrm.mode ≠ 3 := by simpa [ModRM.isRegister] using hregister
  have hlow : sib.isSome = true ↔ OperandByte.low modrm.rm = 4 := by
    simpa [ModRM.needsSib, hmode] using hsome
  refine ⟨hmodrm, ?_, ?_, hsib, ?_, ?_⟩
  · simp [ofMemory, hmode, husage]
  · simp [ofMemory, hlow]
  · simp [ofMemory, ModRM.isRipRelative]
  · simpa [ofMemory] using memoryDisplacement_eq hmodrm.mode_lt hmode hlow

/-- A well-formed register operand has no field beyond ModR/M. -/
theorem WellFormed.eq_ofRegister (h : addressing.WellFormed rex usage)
    (hform : usage = .registerOnly ∨ addressing.modrm.isRegister = true) :
    addressing = ofRegister addressing.modrm := by
  have hdirect : addressing.registerDirect = true := by
    rw [h.registerDirect_iff]
    simpa [ModRM.isRegister, or_comm] using hform
  have hsib := h.sib_isSome_iff
  have hrip := h.ripRelative_iff
  have hsize := h.displacementSize_eq
  obtain ⟨modrm, sib, size, rip, direct⟩ := addressing
  simp_all [ofRegister]

/-- A well-formed memory operand has the form that its ModR/M and SIB fields give it. -/
theorem WellFormed.eq_ofMemory (h : addressing.WellFormed rex usage)
    (hform : ¬ (usage = .registerOnly ∨ addressing.modrm.isRegister = true)) :
    addressing = ofMemory addressing.modrm addressing.sib ∧
      (addressing.sib.isSome = true ↔ addressing.modrm.needsSib = true) := by
  obtain ⟨husage, hregister⟩ := not_or.mp hform
  have hmode : addressing.modrm.mode ≠ 3 := by simpa [ModRM.isRegister] using hregister
  have hdirect : addressing.registerDirect = false := by
    simp [← Bool.not_eq_true, h.registerDirect_iff, hmode, husage]
  have hsome : addressing.sib.isSome = true ↔ OperandByte.low addressing.modrm.rm = 4 := by
    simpa [hdirect] using h.sib_isSome_iff
  have hrip : addressing.ripRelative = addressing.modrm.isRipRelative := by
    rw [Bool.eq_iff_iff, h.ripRelative_iff]
    simp [hdirect, ModRM.isRipRelative]
  have hsize := h.displacementSize_eq
  rw [hdirect, hrip] at hsize
  rw [if_neg (by simp), ← memoryDisplacement_eq h.modrm.mode_lt hmode hsome] at hsize
  refine ⟨?_, by simpa [ModRM.needsSib, hmode] using hsome⟩
  obtain ⟨modrm, sib, size, rip, direct⟩ := addressing
  simp only [ofMemory, Addressing.mk.injEq, true_and]
  exact ⟨hsize, hrip, hdirect⟩

end Addressing

end LongMode
