import LongMode.Proofs.Consistency
import Mathlib.Algebra.Group.Int.Defs

/-!
# The values of fields

Displacement and immediate are the last bytes of an instruction, and both are kept as machine
numbers that were widened on the way. `LittleEndian.signedValue` says what a byte string stands
for in two's complement, without a machine number in between. `DisplacementSize.Fits.toInt_eq` and
`Immediate.toInt_signed` compare the machine numbers with it, each from the bytes that the field
writes, and `Instruction.WellFormed.toNat_ripTarget` says what the sum of address, length and
displacement is before it wraps. `exists_front` says where the bytes of the two fields stand.
-/

namespace LongMode

/-! ## Two's complement -/

namespace LittleEndian

/-- The number a byte string stands for in two's complement: the upper half of the values counts
from below zero. -/
def signedValue (source : List UInt8) : Int :=
  if 2 * value source < 256 ^ source.length then value source
  else value source - 256 ^ source.length

theorem signedValue_eq_bmod (source : List UInt8) :
    signedValue source = Int.bmod (value source) (256 ^ source.length) := by
  have hvalue := value_lt source
  have hmod : (value source : Int) % ((256 ^ source.length : Nat) : Int) = value source :=
    Int.emod_eq_of_lt (Int.natCast_nonneg _) (Int.ofNat_lt.mpr hvalue)
  have hrange : (256 : Int) ^ source.length = ((256 ^ source.length : Nat) : Int) := by simp
  rw [signedValue, Int.bmod, hmod, hrange]
  by_cases hhalf : 2 * value source < 256 ^ source.length
  · rw [if_pos hhalf, if_pos (by omega)]
  · rw [if_neg hhalf, if_neg (by omega)]

/-- The lowest bytes of a number stand for it up to a multiple of their range. -/
theorem signedValue_bytes (count number : Nat) :
    signedValue (bytes count number) = Int.bmod number (256 ^ count) := by
  rw [signedValue_eq_bmod, length_bytes, value_bytes, Int.natCast_emod, Int.emod_bmod]

end LittleEndian

/-! ## Displacements -/

/-- A displacement that fits its size is the two's complement number of its bytes. -/
theorem DisplacementSize.Fits.toInt_eq {size : DisplacementSize} {displacement : Int32}
    (h : size.Fits displacement) :
    displacement.toInt =
      LittleEndian.signedValue (LittleEndian.bytes size.bytes displacement.toUInt32.toNat) := by
  have hword : displacement.toInt = Int.bmod displacement.toUInt32.toNat (2 ^ 32) :=
    BitVec.toInt_eq_toNat_bmod displacement.toBitVec
  rw [LittleEndian.signedValue_bytes]
  cases size with
  | absent => exact h.elim
  | byte =>
      obtain ⟨hlow, hhigh⟩ := h
      -- The lowest byte is the same for the number and for its 32-bit form.
      rw [show 256 ^ DisplacementSize.byte.bytes = 2 ^ 8 from rfl,
        ← Int.bmod_bmod_of_dvd (Nat.pow_dvd_pow 2 (by decide : 8 ≤ 32)), ← hword]
      exact (Int.bmod_eq_of_le hlow hhigh).symm
  | doubleword => exact hword

/-! ## Immediates -/

namespace ImmediateKind

/-- The sizes that immediates come in. -/
theorem size_mem (kind : ImmediateKind) (prefixes : Prefixes) (addressing : Option Addressing) :
    kind.size prefixes addressing ∈ [0, 1, 2, 3, 4, 8] := by
  unfold size operandSizedBytes fullWidthBytes
  grind

theorem size_eq_three_iff {kind : ImmediateKind} {prefixes : Prefixes}
    {addressing : Option Addressing} : kind.size prefixes addressing = 3 ↔ kind = .enter := by
  unfold size operandSizedBytes fullWidthBytes
  grind

end ImmediateKind

/-- ENTER alone has an immediate of its kind. -/
theorem Opcode.immediate_eq_enter_iff {opcode : Opcode} (h : opcode.entry.kind = .defined) :
    opcode.entry.immediate = .enter ↔ opcode = ⟨.oneByte, 0xC8⟩ := by
  have hbands (map : OpcodeMap) : ∀ band ∈ map.bands, band.entry.immediate = .enter →
      map = .oneByte ∧ band.first = 0xC8 ∧ band.last = 0xC8 := by
    cases map <;> decide +kernel
  refine ⟨?_, ?_⟩
  · intro henter
    obtain ⟨band, hband, hfirst, hlast, hentry⟩ := exists_band_of_kind (by rw [h]; decide)
    obtain ⟨hmap, hlow, hhigh⟩ := hbands opcode.map band hband (by rw [hentry, henter])
    rw [hlow] at hfirst
    rw [hhigh] at hlast
    obtain ⟨map, byte⟩ := opcode
    obtain rfl : map = .oneByte := hmap
    obtain rfl : byte = 0xC8 := UInt8.le_antisymm hlast hfirst
    rfl
  · rintro rfl
    decide

namespace Immediate

variable {immediate : Immediate}

/-- An immediate of any width but three bytes is the two's complement number of its bytes. -/
theorem toInt_signed (h : immediate.size.toNat ∈ [1, 2, 4, 8]) :
    immediate.signed.toInt = LittleEndian.signedValue immediate.encoding := by
  obtain ⟨value, size⟩ := immediate
  rw [encoding, LittleEndian.signedValue_bytes, ← UInt64.toNat_toBitVec]
  simp only [List.mem_cons, List.not_mem_nil, or_false] at h
  obtain hsize | hsize | hsize | hsize := h
  · obtain rfl : size = 1 := UInt8.toNat_inj.mp hsize
    rw [show 256 ^ UInt8.toNat 1 = 2 ^ 8 from rfl, ← BitVec.toInt_setWidth]
    exact Int8.toInt_toInt64 _
  · obtain rfl : size = 2 := UInt8.toNat_inj.mp hsize
    rw [show 256 ^ UInt8.toNat 2 = 2 ^ 16 from rfl, ← BitVec.toInt_setWidth]
    exact Int16.toInt_toInt64 _
  · obtain rfl : size = 4 := UInt8.toNat_inj.mp hsize
    rw [show 256 ^ UInt8.toNat 4 = 2 ^ 32 from rfl, ← BitVec.toInt_setWidth]
    exact Int32.toInt_toInt64 _
  · obtain rfl : size = 8 := UInt8.toNat_inj.mp hsize
    rw [show 256 ^ UInt8.toNat 8 = 2 ^ 64 from rfl, ← BitVec.toInt_eq_toNat_bmod]
    rfl

theorem value_encoding (h : immediate.value.toNat < 256 ^ immediate.size.toNat) :
    LittleEndian.value immediate.encoding = immediate.value.toNat := by
  rw [encoding, LittleEndian.value_bytes, Nat.mod_eq_of_lt h]

/-- Three bytes have no sign. -/
theorem toInt_signed_of_size_eq_three (hsize : immediate.size.toNat = 3)
    (h : immediate.value.toNat < 256 ^ immediate.size.toNat) :
    immediate.signed.toInt = LittleEndian.value immediate.encoding := by
  rw [value_encoding h]
  rw [hsize] at h
  have hsmall : immediate.value.toBitVec.toNat < 2 ^ 24 := h
  rw [signed, show immediate.size = 3 from UInt8.toNat_inj.mp hsize]
  show immediate.value.toBitVec.toInt = _
  rw [BitVec.toInt_eq_toNat_bmod]
  refine Int.bmod_eq_of_le ?_ ?_
  · omega
  · omega

/-- Three bytes are a number of two bytes and one of a single byte. -/
theorem enterOperands?_of_size_eq_three (hsize : immediate.size.toNat = 3) :
    ∃ frame level, immediate.enterOperands? = some (frame, level) ∧
      frame.toNat = LittleEndian.value (immediate.encoding.take 2) ∧
      immediate.encoding[2]? = some level := by
  obtain ⟨value, size⟩ := immediate
  obtain rfl : size = 3 := UInt8.toNat_inj.mp hsize
  refine ⟨value.toUInt16, (value >>> 16).toUInt8, rfl, ?_, ?_⟩
  · show value.toUInt16.toNat = LittleEndian.value (LittleEndian.bytes 2 value.toNat)
    rw [LittleEndian.value_bytes]
    exact UInt64.toNat_toUInt16 value
  · show some (UInt8.ofNat (value.toNat / 256 / 256)) = _
    refine congrArg some (UInt8.toNat_inj.mp ?_)
    rw [UInt64.toNat_toUInt8, UInt64.toNat_shiftRight, UInt8.toNat_ofNat', Nat.div_div_eq_div_mul]
    rw [show UInt64.toNat 16 % 64 = 16 from rfl, Nat.shiftRight_eq_div_pow]

end Immediate

/-! ## Addresses -/

namespace Instruction

variable {settings : Settings} {cursor : Cursor} {instruction : Instruction}

/-- A target address is the sum of the address, the length and the displacement, less what does
not fit in 64 bits. -/
theorem WellFormed.toNat_ripTarget (h : instruction.WellFormed) {target : UInt64}
    (htarget : instruction.ripTarget? = some target) :
    ∃ displacement, instruction.displacement = some displacement ∧
      (target.toNat : Int) =
        (instruction.address.toNat + instruction.length + displacement.toInt) % 2 ^ 64 := by
  obtain ⟨displacement, hdisplacement, rfl⟩ := h.ripTarget?_eq htarget
  refine ⟨displacement, hdisplacement, ?_⟩
  have hdistance : (displacement.toInt64.toUInt64.toNat : Int) = displacement.toInt % 2 ^ 64 := by
    have hword := displacement.toInt64.toUInt64.toNat_lt
    rw [← Int32.toInt_toInt64, show displacement.toInt64.toInt = Int.bmod
      displacement.toInt64.toUInt64.toNat (2 ^ 64) from BitVec.toInt_eq_toNat_bmod _]
    have hmod := @Int.bmod_emod displacement.toInt64.toUInt64.toNat (2 ^ 64)
    omega
  rw [nextAddress, UInt64.toNat_add, UInt64.toNat_add, UInt64.toNat_ofNat']
  omega

/-! ## Places -/

/-- The number of bytes of the displacement. -/
def displacementWidth (instruction : Instruction) : Nat :=
  instruction.addressing.elim 0 fun addressing => addressing.displacementSize.bytes

/-- The number of bytes of the immediate. -/
def immediateWidth (instruction : Instruction) : Nat :=
  instruction.immediate.elim 0 fun immediate => immediate.size.toNat

/-- The bytes of the immediate. -/
def immediateEncoding (instruction : Instruction) : List UInt8 :=
  instruction.immediate.toList.flatMap Immediate.encoding

theorem length_immediateEncoding (instruction : Instruction) :
    instruction.immediateEncoding.length = instruction.immediateWidth := by
  unfold immediateEncoding immediateWidth
  cases instruction.immediate with
  | none => rfl
  | some immediate => simp [Immediate.encoding]

theorem WellFormed.length_displacementEncoding (h : instruction.WellFormed) :
    instruction.displacementEncoding.length = instruction.displacementWidth := by
  have hsome := h.operands.displacement_isSome_iff
  unfold displacementEncoding displacementWidth
  cases haddressing : instruction.addressing with
  | none => rfl
  | some addressing =>
      cases hdisplacement : instruction.displacement with
      | none =>
          have habsent : addressing.displacementSize = .absent := by
            simpa [haddressing, hdisplacement] using hsome
          simp [habsent, DisplacementSize.bytes]
      | some displacement => exact LittleEndian.length_bytes _ _

/-- An encoding ends with the displacement and the immediate. -/
theorem IsEncodedBy.exists_front {bytes : List UInt8} (h : instruction.IsEncodedBy settings bytes) :
    ∃ front, bytes = front ++ (instruction.displacementEncoding ++ instruction.immediateEncoding) ∧
      0 < front.length ∧
      instruction.length =
        front.length + instruction.displacementWidth + instruction.immediateWidth := by
  obtain ⟨run, hbytes, -⟩ := h.exists_run
  let front := run ++ (instruction.opcode.encoding
    ++ instruction.addressing.toList.flatMap Addressing.encoding)
  have hplaces : bytes =
      front ++ (instruction.displacementEncoding ++ instruction.immediateEncoding) := by
    simp only [hbytes, front, body, immediateEncoding, List.append_assoc]
  have hwidths : (instruction.displacementEncoding ++ instruction.immediateEncoding).length =
      instruction.displacementWidth + instruction.immediateWidth := by
    rw [List.length_append, h.wellFormed.length_displacementEncoding, length_immediateEncoding]
  refine ⟨front, hplaces, ?_, ?_⟩
  · simp only [front, Opcode.encoding, List.length_append, List.length_singleton]
    omega
  · rw [h.length_eq, hplaces, List.length_append, hwidths, Nat.add_assoc]

/-- The last bytes of an encoding are those of the immediate. -/
theorem IsEncodedBy.drop_eq_immediateEncoding {bytes : List UInt8}
    (h : instruction.IsEncodedBy settings bytes) :
    bytes.drop (instruction.length - instruction.immediateWidth) =
      instruction.immediateEncoding := by
  obtain ⟨front, rfl, -, hlength⟩ := h.exists_front
  rw [← List.append_assoc, show instruction.length - instruction.immediateWidth =
    (front ++ instruction.displacementEncoding).length by
      rw [List.length_append, h.wellFormed.length_displacementEncoding]
      omega]
  exact List.drop_left

/-- The bytes in front of the immediate are those of the displacement. -/
theorem IsEncodedBy.take_drop_eq_displacementEncoding {bytes : List UInt8}
    (h : instruction.IsEncodedBy settings bytes) :
    (bytes.drop (instruction.length - instruction.immediateWidth
        - instruction.displacementWidth)).take instruction.displacementWidth =
      instruction.displacementEncoding := by
  obtain ⟨front, rfl, -, hlength⟩ := h.exists_front
  rw [show instruction.length - instruction.immediateWidth - instruction.displacementWidth =
    front.length by omega, List.drop_left, ← h.wellFormed.length_displacementEncoding]
  exact List.take_left

/-! ## Values -/

/-- The displacement of a well-formed record is the number of its bytes. -/
theorem WellFormed.displacement_eq (h : instruction.WellFormed) {displacement : Int32}
    (hdisplacement : instruction.displacement = some displacement) :
    (instruction.displacementWidth = 1 ∨ instruction.displacementWidth = 4) ∧
      displacement.toInt = LittleEndian.signedValue instruction.displacementEncoding := by
  obtain ⟨addressing, haddressing, hsize⟩ := h.operands.displacement_isSome_iff.mp
    (by rw [hdisplacement]; rfl)
  have hfits := h.operands.displacement_fits addressing haddressing displacement hdisplacement
  have haddressing : instruction.addressing = some addressing := haddressing
  refine ⟨?_, ?_⟩
  · rw [displacementWidth, haddressing]
    cases hform : addressing.displacementSize with
    | absent => exact absurd hform hsize
    | byte => exact .inl (by simp [hform, DisplacementSize.bytes])
    | doubleword => exact .inr (by simp [hform, DisplacementSize.bytes])
  · rw [displacementEncoding, haddressing, hdisplacement]
    exact hfits.toInt_eq

/-- The immediate of a well-formed record is the number of its bytes, which is a signed one unless
there are three of them. -/
theorem WellFormed.immediate_eq (h : instruction.WellFormed) {immediate : Immediate}
    (himmediate : instruction.immediate = some immediate) :
    (instruction.immediateWidth = 1 ∨ instruction.immediateWidth = 2 ∨
        instruction.immediateWidth = 4 ∨ instruction.immediateWidth = 8) ∧
        instruction.opcode ≠ ⟨.oneByte, 0xC8⟩ ∧
        immediate.signed.toInt = LittleEndian.signedValue instruction.immediateEncoding ∨
      instruction.immediateWidth = 3 ∧ instruction.opcode = ⟨.oneByte, 0xC8⟩ ∧
        immediate.signed.toInt = LittleEndian.value instruction.immediateEncoding ∧
        ∃ frame level, immediate.enterOperands? = some (frame, level) ∧
          frame.toNat = LittleEndian.value (instruction.immediateEncoding.take 2) ∧
          instruction.immediateEncoding[2]? = some level := by
  have hsize := h.immediate.size_eq immediate himmediate
  have hvalue := h.immediate.value_lt immediate himmediate
  have hpos := h.immediate.isSome_iff.mp (by rw [himmediate]; rfl)
  have hmem := instruction.opcode.entry.immediate.size_mem instruction.prefixes
    instruction.addressing
  have hwidth : instruction.immediateWidth = immediate.size.toNat := by
    rw [immediateWidth, himmediate]
    rfl
  have hbytes : instruction.immediateEncoding = immediate.encoding := by
    simp [immediateEncoding, himmediate]
  have henter : immediate.size.toNat = 3 ↔ instruction.opcode = ⟨.oneByte, 0xC8⟩ := by
    rw [hsize, ImmediateKind.size_eq_three_iff, Opcode.immediate_eq_enter_iff h.defined]
  rw [← hsize] at hvalue hpos hmem
  rw [hwidth, hbytes]
  by_cases hthree : immediate.size.toNat = 3
  · exact .inr ⟨hthree, henter.mp hthree, Immediate.toInt_signed_of_size_eq_three hthree hvalue,
      Immediate.enterOperands?_of_size_eq_three hthree⟩
  · simp only [List.mem_cons, List.not_mem_nil, or_false] at hmem
    have hother : immediate.size.toNat = 1 ∨ immediate.size.toNat = 2 ∨
        immediate.size.toNat = 4 ∨ immediate.size.toNat = 8 := by
      omega
    exact .inl ⟨hother, hthree ∘ henter.mpr, Immediate.toInt_signed (by simpa using hother)⟩

end Instruction

/-- The fields of a decoded instruction have the values of their bytes. The immediate takes the
last `s` bytes of the instruction and is a two's complement number, except that the three bytes of
ENTER are an unsigned one, of which the first two bytes are the frame size and the third the
nesting level. The displacement takes the `d` bytes in front of them and is a two's complement
number too. A target address is as far from the end of the whole instruction as the displacement
says, up to a multiple of `2 ^ 64`. -/
theorem decode_fieldValues {settings : Settings} {cursor : Cursor} {instruction : Instruction}
    (h : (decode settings cursor).outcome = .ok instruction) :
    let bytes := (cursor.region.drop cursor.position).take instruction.length
    let s := instruction.immediate.elim 0 fun immediate => immediate.size.toNat
    let d := instruction.addressing.elim 0 fun addressing => addressing.displacementSize.bytes
    let field := bytes.drop (instruction.length - s)
    bytes.length = instruction.length ∧ d + s < instruction.length ∧
    (∀ immediate, instruction.immediate = some immediate →
      (s = 1 ∨ s = 2 ∨ s = 4 ∨ s = 8) ∧ instruction.opcode ≠ ⟨.oneByte, 0xC8⟩ ∧
          immediate.signed.toInt = LittleEndian.signedValue field ∨
        s = 3 ∧ instruction.opcode = ⟨.oneByte, 0xC8⟩ ∧
          immediate.signed.toInt = LittleEndian.value field ∧
          ∃ frame level, immediate.enterOperands? = some (frame, level) ∧
            frame.toNat = LittleEndian.value (field.take 2) ∧ field[2]? = some level) ∧
    (∀ displacement, instruction.displacement = some displacement →
      (d = 1 ∨ d = 4) ∧ displacement.toInt =
        LittleEndian.signedValue ((bytes.drop (instruction.length - s - d)).take d)) ∧
    (∀ target, instruction.ripTarget? = some target →
      ∃ displacement, instruction.displacement = some displacement ∧
        (target.toNat : Int) =
          (instruction.address.toNat + instruction.length + displacement.toInt) % 2 ^ 64) := by
  intro bytes s d field
  obtain ⟨-, encoded, rest, hregion, hencoded⟩ := outcome_eq_ok_iff_isEncodedBy.mp h
  have hwell := hencoded.wellFormed
  have hbytes : bytes = encoded := by
    show (cursor.region.drop cursor.position).take instruction.length = encoded
    rw [hregion, hencoded.length_eq, List.take_left]
  have hfield : field = instruction.immediateEncoding := by
    show bytes.drop (instruction.length - instruction.immediateWidth) = _
    rw [hbytes, hencoded.drop_eq_immediateEncoding]
  have hmiddle : (bytes.drop (instruction.length - s - d)).take d =
      instruction.displacementEncoding := by
    rw [hbytes]
    exact hencoded.take_drop_eq_displacementEncoding
  rw [hfield, hmiddle, hbytes]
  refine ⟨hencoded.length_eq.symm, ?_, fun immediate => hwell.immediate_eq,
    fun displacement => hwell.displacement_eq, fun target => hwell.toNat_ripTarget⟩
  obtain ⟨front, -, hfront, hlength⟩ := hencoded.exists_front
  show instruction.displacementWidth + instruction.immediateWidth < instruction.length
  omega

/-- An addition of the lowest 32-bit number to a place before the start of the address space,
whose displacement stands in front of the immediate, and an ENTER one byte into its region. -/
theorem decode_fieldValues_wrapped_addition :
    (∃ instruction immediate displacement target,
      (decode {} ⟨[0x48, 0x81, 0x05, 0xF0, 0xFF, 0xFF, 0xFF, 0x00, 0x00, 0x00, 0x80], 0,
        0⟩).outcome = .ok instruction ∧
      instruction.immediate = some immediate ∧ immediate.signed.toInt = -2 ^ 31 ∧
      instruction.displacement = some displacement ∧ displacement.toInt = -16 ∧
      instruction.ripTarget? = some target ∧ (target.toNat : Int) = 2 ^ 64 - 5) ∧
    (∃ instruction immediate,
      (decode {} ⟨[0x90, 0xC8, 0x34, 0x12, 0xFF], 1, 0⟩).outcome = .ok instruction ∧
      instruction.immediate = some immediate ∧ immediate.signed.toInt = 0xFF1234 ∧
      ∃ frame level, immediate.enterOperands? = some (frame, level) ∧ frame.toNat = 0x1234 ∧
        level = 0xFF) := by
  obtain ⟨-, -, himmediate, hdisplacement, htarget⟩ := @decode_fieldValues {}
    ⟨[0x48, 0x81, 0x05, 0xF0, 0xFF, 0xFF, 0xFF, 0x00, 0x00, 0x00, 0x80], 0, 0⟩ _ rfl
  obtain ⟨-, -, henter, -⟩ := @decode_fieldValues {} ⟨[0x90, 0xC8, 0x34, 0x12, 0xFF], 1, 0⟩ _ rfl
  refine ⟨⟨_, _, _, _, rfl, rfl, ?_, rfl, ?_, rfl, ?_⟩, ⟨_, _, rfl, rfl, ?_⟩⟩
  · obtain ⟨-, -, hvalue⟩ | ⟨hthree, -⟩ := himmediate _ rfl
    · exact hvalue.trans (by decide)
    · exact absurd hthree (by decide)
  · exact (hdisplacement _ rfl).2.trans (by decide)
  · obtain ⟨displacement, hsome, hsum⟩ := htarget _ rfl
    obtain rfl := Option.some.inj hsome
    exact hsum.trans (by decide)
  · obtain ⟨-, hother, -⟩ | ⟨-, -, hvalue, frame, level, hoperands, hframe, hlevel⟩ :=
      henter _ rfl
    · exact absurd rfl hother
    · exact ⟨hvalue.trans (by decide), frame, level, hoperands, hframe.trans (by decide),
        (Option.some.inj hlevel).symm⟩

end LongMode
