import LongMode.Decode
import LongMode.Proofs.OperandForms
import LongMode.Proofs.Reads

/-!
# Reading operands

What the stages behind the opcode read: SIB, displacement, all operands, and the
immediate. Each stage succeeds exactly when its result is one that the opcode admits
and the next bytes are those that the result writes; `readOperands_eq_ok_iff` and
`Immediate.read_eq_ok_iff` are the statements to read first.
-/

namespace LongMode

/-! ## SIB and displacement -/

namespace Addressing

variable {modrm : ModRM} {rex : Rex} {sib : Option Sib} {input after : Lookahead}

/-- What is read as a SIB byte is there when ModR/M asks for it. -/
theorem readSib_sound (h : readSib modrm rex input = .ok (sib, after)) :
    (sib.isSome = true ↔ modrm.needsSib = true) ∧ (∀ found ∈ sib, found.WellFormed rex) ∧
      input.Reads (sib.toList.map Sib.toByte) after := by
  unfold readSib at h
  by_cases hneeds : modrm.needsSib = true
  · rw [if_pos hneeds] at h
    obtain ⟨byte, between, hbyte, h⟩ := Reader.bind_eq_ok_iff.mp h
    obtain ⟨rfl, rfl⟩ := Reader.pure_eq_ok_iff.mp h
    obtain ⟨hfound, hwritten⟩ := Sib.ofByte_eq_iff.mp (Eq.refl (Sib.ofByte byte rex))
    refine ⟨by simp [hneeds], by simpa using hfound, ?_⟩
    show input.Reads [(Sib.ofByte byte rex).toByte] between
    rw [hwritten]
    exact Reader.byte_eq_ok_iff.mp hbyte
  · rw [if_neg hneeds] at h
    obtain ⟨rfl, rfl⟩ := Reader.pure_eq_ok_iff.mp h
    exact ⟨by simp [hneeds], by simp, Lookahead.reads_nil_iff.mpr rfl⟩

/-- A SIB byte that ModR/M asks for is read from its byte. -/
theorem readSib_complete (hsome : sib.isSome = true ↔ modrm.needsSib = true)
    (hfound : ∀ found ∈ sib, found.WellFormed rex)
    (hreads : input.Reads (sib.toList.map Sib.toByte) after) :
    readSib modrm rex input = .ok (sib, after) := by
  unfold readSib
  by_cases hneeds : modrm.needsSib = true
  · obtain ⟨found, rfl⟩ := Option.isSome_iff_exists.mp (hsome.mpr hneeds)
    rw [if_pos hneeds]
    refine Reader.bind_eq_ok_iff.mpr
      ⟨found.toByte, after, Reader.byte_eq_ok_iff.mpr hreads, ?_⟩
    rw [Sib.ofByte_eq_iff.mpr ⟨hfound found rfl, rfl⟩]
    exact Reader.pure_eq_ok_iff.mpr ⟨rfl, rfl⟩
  · obtain rfl : sib = none := by simpa [hneeds] using hsome
    rw [if_neg hneeds]
    exact Reader.pure_eq_ok_iff.mpr ⟨rfl, Lookahead.reads_nil_iff.mp hreads⟩

end Addressing

namespace DisplacementSize

/-- Whether a displacement can be written in a size, as a two's complement number. -/
def Fits : DisplacementSize → Int32 → Prop
  | .absent, _ => False
  | .byte, displacement => -128 ≤ displacement.toInt ∧ displacement.toInt < 128
  | .doubleword, _ => True

/-- A displacement is there exactly when its size is not zero, and it fits that size. -/
structure Admits (size : DisplacementSize) (displacement : Option Int32) : Prop where
  isSome_iff : displacement.isSome = true ↔ size ≠ .absent
  fits : ∀ number ∈ displacement, size.Fits number

/-- The bytes of a displacement in a size. -/
def encoding (size : DisplacementSize) (displacement : Option Int32) : List UInt8 :=
  match displacement with
  | some number => LittleEndian.bytes size.bytes number.toUInt32.toNat
  | none => []

/-- A displacement of one byte is the byte extended by its sign. -/
theorem toInt32_toInt8_eq_iff {byte : UInt8} {displacement : Int32} :
    byte.toInt8.toInt32 = displacement ↔
      Fits .byte displacement ∧ encoding .byte (some displacement) = [byte] := by
  have hsource : byte.toInt8.toInt32.toInt = byte.toBitVec.toInt := by
    rw [Int8.toInt_toInt32]
    rfl
  have hbyte := byte.toBitVec.isLt
  have hword := displacement.toBitVec.isLt
  have htarget : displacement.toInt = displacement.toBitVec.toInt := rfl
  have hwritten : encoding .byte (some displacement) = [byte] ↔
      displacement.toBitVec.toNat % 256 = byte.toBitVec.toNat := by
    simp only [encoding, bytes, LittleEndian.bytes, List.cons.injEq, and_true, ← UInt8.toNat_inj,
      UInt8.toNat_ofNat']
    exact Iff.rfl
  rw [hwritten, Fits, ← Int32.toInt_inj, hsource, htarget]
  simp only [BitVec.toInt_eq_toNat_bmod, Int.bmod]
  omega

variable {size : DisplacementSize} {displacement : Option Int32} {input after : Lookahead}

/-- What is read as a displacement is one that its size admits. -/
theorem readDisplacement_sound
    (h : Addressing.readDisplacement size input = .ok (displacement, after)) :
    size.Admits displacement ∧ input.Reads (size.encoding displacement) after := by
  cases size with
  | absent =>
      obtain ⟨rfl, rfl⟩ := Reader.pure_eq_ok_iff.mp h
      exact ⟨⟨by simp, by simp⟩, Lookahead.reads_nil_iff.mpr rfl⟩
  | byte =>
      obtain ⟨byte, between, hbyte, h⟩ := Reader.bind_eq_ok_iff.mp h
      obtain ⟨rfl, rfl⟩ := Reader.pure_eq_ok_iff.mp h
      obtain ⟨hfits, hwritten⟩ := toInt32_toInt8_eq_iff.mp (Eq.refl byte.toInt8.toInt32)
      refine ⟨⟨by simp, by simpa using hfits⟩, ?_⟩
      rw [hwritten]
      exact Reader.byte_eq_ok_iff.mp hbyte
  | doubleword =>
      obtain ⟨value, between, hvalue, h⟩ := Reader.bind_eq_ok_iff.mp h
      obtain ⟨rfl, rfl⟩ := Reader.pure_eq_ok_iff.mp h
      obtain ⟨hsmall, hreads⟩ := (Reader.littleEndian_eq_ok_iff (by decide)).mp hvalue
      refine ⟨⟨by simp, by simp [Fits]⟩, ?_⟩
      have hword : value.toNat % 2 ^ 32 = value.toNat := Nat.mod_eq_of_lt (by simpa using hsmall)
      show input.Reads (LittleEndian.bytes 4 value.toUInt32.toInt32.toUInt32.toNat) between
      rw [UInt32.toUInt32_toInt32, UInt64.toNat_toUInt32, hword]
      exact hreads

/-- A displacement that its size admits is read from its bytes. -/
theorem readDisplacement_complete (hadmits : size.Admits displacement)
    (hreads : input.Reads (size.encoding displacement) after) :
    Addressing.readDisplacement size input = .ok (displacement, after) := by
  cases size with
  | absent =>
      obtain rfl : displacement = none := by simpa using hadmits.isSome_iff
      exact Reader.pure_eq_ok_iff.mpr ⟨rfl, Lookahead.reads_nil_iff.mp hreads⟩
  | byte =>
      obtain ⟨number, rfl⟩ := Option.isSome_iff_exists.mp (hadmits.isSome_iff.mpr (by simp))
      have hnumber := toInt32_toInt8_eq_iff.mpr ⟨hadmits.fits number rfl, rfl⟩
      refine Reader.bind_eq_ok_iff.mpr
        ⟨UInt8.ofNat number.toUInt32.toNat, after, Reader.byte_eq_ok_iff.mpr hreads, ?_⟩
      rw [hnumber]
      exact Reader.pure_eq_ok_iff.mpr ⟨rfl, rfl⟩
  | doubleword =>
      obtain ⟨number, rfl⟩ := Option.isSome_iff_exists.mp (hadmits.isSome_iff.mpr (by simp))
      have hword := number.toUInt32.toNat_lt
      refine Reader.bind_eq_ok_iff.mpr ⟨number.toUInt32.toUInt64, after, ?_, ?_⟩
      · exact (Reader.littleEndian_eq_ok_iff (by decide)).mpr ⟨by simpa using hword, hreads⟩
      · exact Reader.pure_eq_ok_iff.mpr ⟨by simp, rfl⟩

end DisplacementSize

namespace Addressing

variable {rex : Rex} {usage : ModRMUsage} {addressing : Addressing}
  {displacement : Option Int32} {input after : Lookahead}

/-- What is read as addressing is well formed, and the displacement is the one it asks
for. -/
theorem read_sound
    (h : Addressing.read rex usage input = .ok ((addressing, displacement), after)) :
    addressing.WellFormed rex usage ∧ addressing.displacementSize.Admits displacement ∧
      input.Reads (addressing.encoding ++ addressing.displacementSize.encoding displacement)
        after := by
  unfold Addressing.read at h
  obtain ⟨byte, l1, hbyte, h⟩ := Reader.bind_eq_ok_iff.mp h
  have hbyte := Reader.byte_eq_ok_iff.mp hbyte
  obtain ⟨hmodrm, hwritten⟩ := ModRM.ofByte_eq_iff.mp (Eq.refl (ModRM.ofByte byte rex))
  rw [← hwritten] at hbyte
  dsimp only at h
  by_cases hform : usage = .registerOnly ∨ (ModRM.ofByte byte rex).isRegister = true
  · rw [if_pos hform] at h
    obtain ⟨hresult, rfl⟩ := Reader.pure_eq_ok_iff.mp h
    obtain ⟨rfl, rfl⟩ := Prod.mk.inj hresult
    exact ⟨wellFormed_ofRegister hmodrm hform, ⟨by simp [ofRegister], by simp⟩, hbyte⟩
  · rw [if_neg hform] at h
    obtain ⟨sib, l2, hsib, h⟩ := Reader.bind_eq_ok_iff.mp h
    obtain ⟨number, l3, hnumber, h⟩ := Reader.bind_eq_ok_iff.mp h
    obtain ⟨hresult, rfl⟩ := Reader.pure_eq_ok_iff.mp h
    obtain ⟨rfl, rfl⟩ := Prod.mk.inj hresult
    obtain ⟨hsome, hfound, hsib⟩ := readSib_sound hsib
    obtain ⟨hadmits, hnumber⟩ := DisplacementSize.readDisplacement_sound hnumber
    exact ⟨wellFormed_ofMemory hmodrm hform hsome hfound, hadmits,
      (hbyte.append hsib).append hnumber⟩

/-- Well-formed addressing and its displacement are read from their bytes. -/
theorem read_complete (hwell : addressing.WellFormed rex usage)
    (hadmits : addressing.displacementSize.Admits displacement)
    (hreads : input.Reads
      (addressing.encoding ++ addressing.displacementSize.encoding displacement) after) :
    Addressing.read rex usage input = .ok ((addressing, displacement), after) := by
  obtain ⟨l2, hencoding, hnumber⟩ := Lookahead.reads_append_iff.mp hreads
  obtain ⟨l1, hbyte, hsib⟩ := Lookahead.reads_cons_iff.mp hencoding
  unfold Addressing.read
  refine Reader.bind_eq_ok_iff.mpr
    ⟨addressing.modrm.toByte, l1, Reader.byte_eq_ok_iff.mpr hbyte, ?_⟩
  dsimp only
  rw [ModRM.ofByte_eq_iff.mpr ⟨hwell.modrm, rfl⟩]
  by_cases hform : usage = .registerOnly ∨ addressing.modrm.isRegister = true
  · have heq := hwell.eq_ofRegister hform
    rw [heq] at hsib hnumber hadmits
    obtain rfl : displacement = none := by simpa [ofRegister] using hadmits.isSome_iff
    obtain rfl := Lookahead.reads_nil_iff.mp hsib
    obtain rfl := Lookahead.reads_nil_iff.mp hnumber
    rw [if_pos hform, ← heq]
    exact Reader.pure_eq_ok_iff.mpr ⟨rfl, rfl⟩
  · obtain ⟨heq, hsome⟩ := hwell.eq_ofMemory hform
    rw [if_neg hform]
    refine Reader.bind_eq_ok_iff.mpr
      ⟨addressing.sib, l2, readSib_complete hsome hwell.sib hsib, ?_⟩
    rw [← heq]
    refine Reader.bind_eq_ok_iff.mpr
      ⟨displacement, after, DisplacementSize.readDisplacement_complete hadmits hnumber, ?_⟩
    exact Reader.pure_eq_ok_iff.mpr ⟨rfl, rfl⟩

end Addressing

/-! ## Operands and immediates of an opcode -/

/-- The operands that can follow an opcode with the given use of ModR/M under the given
REX bits. -/
structure ModRMUsage.Admits (usage : ModRMUsage) (rex : Rex) (addressing : Option Addressing)
    (displacement : Option Int32) : Prop where
  addressing_isSome_iff : addressing.isSome = true ↔ usage ≠ .absent
  addressing_wellFormed : ∀ found ∈ addressing, found.WellFormed rex usage
  displacement_isSome_iff :
    displacement.isSome = true ↔ ∃ found ∈ addressing, found.displacementSize ≠ .absent
  displacement_fits :
    ∀ found ∈ addressing, ∀ number ∈ displacement, found.displacementSize.Fits number

/-- The bytes of the operands: ModR/M, SIB and displacement. -/
def operandEncoding (addressing : Option Addressing) (displacement : Option Int32) : List UInt8 :=
  addressing.toList.flatMap fun found =>
    found.encoding ++ found.displacementSize.encoding displacement

variable {prefixes : Prefixes} {rex : Rex} {usage : ModRMUsage} {addressing : Option Addressing}
  {displacement : Option Int32} {input after : Lookahead}

/-- An opcode without ModR/M has no operands. -/
theorem ModRMUsage.admits_absent_iff :
    Admits .absent rex addressing displacement ↔ addressing = none ∧ displacement = none := by
  refine ⟨?_, ?_⟩
  · intro h
    obtain rfl : addressing = none := by simpa using h.addressing_isSome_iff
    exact ⟨rfl, by simpa using h.displacement_isSome_iff⟩
  · intro h
    obtain ⟨rfl, rfl⟩ := h
    exact ⟨by simp, by simp, by simp, by simp⟩

/-- An opcode with ModR/M has well-formed operands and the displacement they ask for. -/
theorem ModRMUsage.admits_iff (husage : usage ≠ .absent) :
    usage.Admits rex addressing displacement ↔
      ∃ found, addressing = some found ∧ found.WellFormed rex usage ∧
        found.displacementSize.Admits displacement := by
  refine ⟨?_, ?_⟩
  · intro h
    obtain ⟨found, rfl⟩ := Option.isSome_iff_exists.mp (h.addressing_isSome_iff.mpr husage)
    refine ⟨found, rfl, h.addressing_wellFormed found rfl, ?_, h.displacement_fits found rfl⟩
    simpa using h.displacement_isSome_iff
  · intro h
    obtain ⟨found, rfl, hwell, hadmits⟩ := h
    exact ⟨by simp [husage], by simpa using hwell, by simpa using hadmits.isSome_iff,
      by simpa using hadmits.fits⟩

/-- The operands of an opcode with ModR/M are read as its addressing. -/
theorem readOperands_of_ne_absent (husage : usage ≠ .absent) :
    readOperands prefixes usage =
      Addressing.read prefixes.rexOrClear usage >>= fun result =>
        pure (some result.1, result.2) := by
  cases usage with
  | absent => exact absurd rfl husage
  | present | registerOnly => rfl

/-- What is read as operands is what the opcode admits. -/
theorem readOperands_sound
    (h : readOperands prefixes usage input = .ok ((addressing, displacement), after)) :
    usage.Admits prefixes.rexOrClear addressing displacement ∧
      input.Reads (operandEncoding addressing displacement) after := by
  by_cases husage : usage = .absent
  · subst husage
    obtain ⟨hresult, rfl⟩ := Reader.pure_eq_ok_iff.mp h
    obtain ⟨rfl, rfl⟩ := Prod.mk.inj hresult
    exact ⟨ModRMUsage.admits_absent_iff.mpr ⟨rfl, rfl⟩, Lookahead.reads_nil_iff.mpr rfl⟩
  · rw [readOperands_of_ne_absent husage] at h
    obtain ⟨result, between, hfound, h⟩ := Reader.bind_eq_ok_iff.mp h
    obtain ⟨hresult, rfl⟩ := Reader.pure_eq_ok_iff.mp h
    obtain ⟨rfl, rfl⟩ := Prod.mk.inj hresult
    obtain ⟨hwell, hadmits, hreads⟩ := Addressing.read_sound hfound
    refine ⟨(ModRMUsage.admits_iff husage).mpr ⟨result.1, rfl, hwell, hadmits⟩, ?_⟩
    simpa [operandEncoding] using hreads

/-- Operands that the opcode admits are read from their bytes. -/
theorem readOperands_complete
    (hoperands : usage.Admits prefixes.rexOrClear addressing displacement)
    (hreads : input.Reads (operandEncoding addressing displacement) after) :
    readOperands prefixes usage input = .ok ((addressing, displacement), after) := by
  by_cases husage : usage = .absent
  · subst husage
    obtain ⟨rfl, rfl⟩ := ModRMUsage.admits_absent_iff.mp hoperands
    exact Reader.pure_eq_ok_iff.mpr ⟨rfl, Lookahead.reads_nil_iff.mp hreads⟩
  · obtain ⟨found, rfl, hwell, hadmits⟩ := (ModRMUsage.admits_iff husage).mp hoperands
    rw [readOperands_of_ne_absent husage]
    have hfound : input.Reads
        (found.encoding ++ found.displacementSize.encoding displacement) after := by
      simpa [operandEncoding] using hreads
    exact Reader.bind_eq_ok_iff.mpr ⟨(found, displacement), after,
      Addressing.read_complete hwell hadmits hfound, Reader.pure_eq_ok_iff.mpr ⟨rfl, rfl⟩⟩

/-- The operands are read exactly when the opcode admits them and they are written in
their order. -/
theorem readOperands_eq_ok_iff :
    readOperands prefixes usage input = .ok ((addressing, displacement), after) ↔
      usage.Admits prefixes.rexOrClear addressing displacement ∧
        input.Reads (operandEncoding addressing displacement) after :=
  ⟨readOperands_sound, fun h => readOperands_complete h.1 h.2⟩

/-- The immediates of a kind that can follow the given prefixes and operands. -/
structure ImmediateKind.Admits (kind : ImmediateKind) (prefixes : Prefixes)
    (addressing : Option Addressing) (immediate : Option Immediate) : Prop where
  isSome_iff : immediate.isSome = true ↔ 0 < kind.size prefixes addressing
  size_eq : ∀ found ∈ immediate, found.size.toNat = kind.size prefixes addressing
  value_lt : ∀ found ∈ immediate, found.value.toNat < 256 ^ kind.size prefixes addressing

namespace Immediate

variable {kind : ImmediateKind} {immediate : Option Immediate}

/-- What is read as an immediate is what its kind admits. -/
theorem read_sound (h : Immediate.read kind prefixes addressing input = .ok (immediate, after)) :
    kind.Admits prefixes addressing immediate ∧
      input.Reads (immediate.toList.flatMap Immediate.encoding) after := by
  have hle := kind.size_le_eight prefixes addressing
  unfold Immediate.read at h
  by_cases hzero : kind.size prefixes addressing = 0
  · rw [if_pos hzero] at h
    obtain ⟨rfl, rfl⟩ := Reader.pure_eq_ok_iff.mp h
    exact ⟨⟨by simp [hzero], by simp, by simp⟩, Lookahead.reads_nil_iff.mpr rfl⟩
  · rw [if_neg hzero] at h
    obtain ⟨value, between, hvalue, h⟩ := Reader.bind_eq_ok_iff.mp h
    obtain ⟨rfl, rfl⟩ := Reader.pure_eq_ok_iff.mp h
    obtain ⟨hsmall, hreads⟩ := (Reader.littleEndian_eq_ok_iff hle).mp hvalue
    have hpos : 0 < kind.size prefixes addressing := by omega
    have hsize : (UInt8.ofNat (kind.size prefixes addressing)).toNat =
        kind.size prefixes addressing := by
      rw [UInt8.toNat_ofNat']
      omega
    refine ⟨⟨by simpa using hpos, by simpa using hsize, by simpa using hsmall⟩, ?_⟩
    simpa [encoding, hsize] using hreads

/-- An immediate that its kind admits is read from its bytes. -/
theorem read_complete (hadmits : kind.Admits prefixes addressing immediate)
    (hreads : input.Reads (immediate.toList.flatMap Immediate.encoding) after) :
    Immediate.read kind prefixes addressing input = .ok (immediate, after) := by
  have hle := kind.size_le_eight prefixes addressing
  unfold Immediate.read
  by_cases hzero : kind.size prefixes addressing = 0
  · obtain rfl : immediate = none := by simpa [hzero] using hadmits.isSome_iff
    rw [if_pos hzero]
    exact Reader.pure_eq_ok_iff.mpr ⟨rfl, Lookahead.reads_nil_iff.mp hreads⟩
  · have hpos : 0 < kind.size prefixes addressing := by omega
    obtain ⟨found, rfl⟩ := Option.isSome_iff_exists.mp (hadmits.isSome_iff.mpr hpos)
    have hsize := hadmits.size_eq found rfl
    have hvalue : input.Reads
        (LittleEndian.bytes (kind.size prefixes addressing) found.value.toNat) after := by
      simpa [encoding, hsize] using hreads
    rw [if_neg hzero]
    refine Reader.bind_eq_ok_iff.mpr ⟨found.value, after,
      (Reader.littleEndian_eq_ok_iff hle).mpr ⟨hadmits.value_lt found rfl, hvalue⟩, ?_⟩
    refine Reader.pure_eq_ok_iff.mpr ⟨?_, rfl⟩
    rw [← hsize, UInt8.ofNat_toNat]

/-- An immediate is read exactly when its kind admits it and its bytes are the next ones. -/
theorem read_eq_ok_iff :
    Immediate.read kind prefixes addressing input = .ok (immediate, after) ↔
      kind.Admits prefixes addressing immediate ∧
        input.Reads (immediate.toList.flatMap Immediate.encoding) after :=
  ⟨read_sound, fun h => read_complete h.1 h.2⟩

end Immediate

end LongMode
