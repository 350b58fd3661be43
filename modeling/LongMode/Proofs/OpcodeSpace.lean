import LongMode.Opcode.Resolve
import LongMode.Proofs.PrefixRun

/-!
# The opcodes that can be read

An opcode is read by its escape bytes and its own byte, and `Opcode.read_eq_ok_iff`
says for which opcodes this works. The tables keep the roles of bytes apart:
an opcode that is defined starts neither with a prefix byte nor with a byte that
leads to another map.
-/

namespace LongMode.Opcode

variable {opcode : Opcode} {input after : Lookahead}

/-- The bytes that lead to another map are not opcodes of the map they are read in. -/
structure IsReachable (opcode : Opcode) : Prop where
  oneByte : opcode.map = .oneByte → opcode.byte ≠ 0x0F
  twoByte : opcode.map = .twoByte → opcode.byte ≠ 0x38 ∧ opcode.byte ≠ 0x3A

/-- What is read as an opcode can be, and its bytes were the next ones. -/
theorem read_sound (h : Opcode.read input = .ok (opcode, after)) :
    opcode.IsReachable ∧ input.Reads opcode.encoding after := by
  unfold Opcode.read at h
  obtain ⟨first, l1, hfirst, h⟩ := Reader.bind_eq_ok_iff.mp h
  have hfirst := Reader.byte_eq_ok_iff.mp hfirst
  by_cases hother : first ≠ 0x0F
  · rw [if_pos hother] at h
    obtain ⟨rfl, rfl⟩ := Reader.pure_eq_ok_iff.mp h
    exact ⟨⟨fun _ => hother, nofun⟩, hfirst⟩
  · rw [if_neg hother] at h
    obtain rfl : first = 0x0F := by simpa using hother
    obtain ⟨second, l2, hsecond, h⟩ := Reader.bind_eq_ok_iff.mp h
    have hsecond := hfirst.append (Reader.byte_eq_ok_iff.mp hsecond)
    by_cases h38 : second = 0x38
    · subst h38
      obtain ⟨third, l3, hthird, h⟩ := Reader.bind_eq_ok_iff.mp h
      obtain ⟨rfl, rfl⟩ := Reader.pure_eq_ok_iff.mp h
      exact ⟨⟨nofun, nofun⟩, hsecond.append (Reader.byte_eq_ok_iff.mp hthird)⟩
    · rw [if_neg h38] at h
      by_cases h3A : second = 0x3A
      · subst h3A
        obtain ⟨third, l3, hthird, h⟩ := Reader.bind_eq_ok_iff.mp h
        obtain ⟨rfl, rfl⟩ := Reader.pure_eq_ok_iff.mp h
        exact ⟨⟨nofun, nofun⟩, hsecond.append (Reader.byte_eq_ok_iff.mp hthird)⟩
      · rw [if_neg h3A] at h
        obtain ⟨rfl, rfl⟩ := Reader.pure_eq_ok_iff.mp h
        exact ⟨⟨nofun, fun _ => ⟨h38, h3A⟩⟩, hsecond⟩

/-- An opcode that can be read is read from its bytes. -/
theorem read_complete (hreachable : opcode.IsReachable)
    (hreads : input.Reads opcode.encoding after) :
    Opcode.read input = .ok (opcode, after) := by
  obtain ⟨map, byte⟩ := opcode
  unfold Opcode.read
  cases map with
  | oneByte =>
      refine Reader.bind_eq_ok_iff.mpr ⟨byte, after, Reader.byte_eq_ok_iff.mpr hreads, ?_⟩
      rw [if_pos (hreachable.oneByte rfl)]
      exact Reader.pure_eq_ok_iff.mpr ⟨rfl, rfl⟩
  | twoByte =>
      obtain ⟨h38, h3A⟩ := hreachable.twoByte rfl
      obtain ⟨l1, hfirst, hsecond⟩ := Lookahead.reads_cons_iff.mp hreads
      refine Reader.bind_eq_ok_iff.mpr ⟨0x0F, l1, Reader.byte_eq_ok_iff.mpr hfirst, ?_⟩
      rw [if_neg (by decide), Reader.bind_eq_ok_iff]
      refine ⟨byte, after, Reader.byte_eq_ok_iff.mpr hsecond, ?_⟩
      rw [if_neg h38, if_neg h3A]
      exact Reader.pure_eq_ok_iff.mpr ⟨rfl, rfl⟩
  | threeByte38 | threeByte3A =>
      obtain ⟨l1, hfirst, hreads⟩ := Lookahead.reads_cons_iff.mp hreads
      obtain ⟨l2, hsecond, hthird⟩ := Lookahead.reads_cons_iff.mp hreads
      refine Reader.bind_eq_ok_iff.mpr ⟨0x0F, l1, Reader.byte_eq_ok_iff.mpr hfirst, ?_⟩
      rw [if_neg (by decide), Reader.bind_eq_ok_iff]
      refine ⟨_, l2, Reader.byte_eq_ok_iff.mpr hsecond, ?_⟩
      exact Reader.bind_eq_ok_iff.mpr
        ⟨byte, after, Reader.byte_eq_ok_iff.mpr hthird, Reader.pure_eq_ok_iff.mpr ⟨rfl, rfl⟩⟩

/-- An opcode is read exactly when it can be and its bytes are the next ones. -/
theorem read_eq_ok_iff :
    Opcode.read input = .ok (opcode, after) ↔
      opcode.IsReachable ∧ input.Reads opcode.encoding after :=
  ⟨read_sound, fun h => read_complete h.1 h.2⟩

/-- An opcode has a layout exactly when it is defined. -/
theorem layout_eq_ok_iff {layout : Layout} :
    opcode.layout = .ok layout ↔
      opcode.entry.kind = .defined ∧
        layout = { modrm := opcode.entry.modrm, immediate := opcode.entry.immediate } := by
  unfold Opcode.layout
  cases hkind : opcode.entry.kind <;> simp [hkind, eq_comm]

/-- The check of POP passes exactly when the next byte has reg field 0, and reads
nothing. -/
theorem checkPop_eq_ok_iff {result : Unit} :
    opcode.checkPop input = .ok (result, after) ↔
      (opcode = pop → ∃ byte, input.rest.head? = some byte ∧ OperandByte.middle byte = 0) ∧
        input = after := by
  unfold checkPop
  by_cases hpop : opcode = pop
  · rw [if_pos hpop, Reader.bind_eq_ok_iff]
    refine ⟨?_, ?_⟩
    · intro h
      obtain ⟨byte, between, hpeek, h⟩ := h
      obtain ⟨hhead, rfl⟩ := Reader.peek_eq_ok_iff.mp hpeek
      by_cases hzero : OperandByte.middle byte ≠ 0
      · rw [if_pos hzero] at h
        exact absurd h Reader.fail_ne_ok
      · rw [if_neg hzero] at h
        obtain ⟨-, rfl⟩ := Reader.pure_eq_ok_iff.mp h
        exact ⟨fun _ => ⟨byte, hhead, by simpa using hzero⟩, rfl⟩
    · intro h
      obtain ⟨hbyte, rfl⟩ := h
      obtain ⟨byte, hhead, hzero⟩ := hbyte hpop
      refine ⟨byte, input, Reader.peek_eq_ok_iff.mpr ⟨hhead, rfl⟩, ?_⟩
      rw [if_neg (by simpa using hzero)]
      exact Reader.pure_eq_ok_iff.mpr ⟨rfl, rfl⟩
  · rw [if_neg hpop, Reader.pure_eq_ok_iff]
    simp [hpop]

/-! ## The roles of bytes in the tables -/

/-- An opcode whose entry says anything lies in the band that says it. -/
theorem exists_band_of_kind (h : opcode.entry.kind ≠ .invalid) :
    ∃ band ∈ opcode.map.bands,
      band.first ≤ opcode.byte ∧ opcode.byte ≤ band.last ∧ band.entry = opcode.entry := by
  unfold Opcode.entry at h ⊢
  cases hfind : opcode.map.bands.find? (·.covers opcode.byte) with
  | none =>
      rw [hfind] at h
      exact absurd rfl h
  | some band =>
      have hcovers := List.find?_some hfind
      simp only [Band.covers, Bool.and_eq_true, decide_eq_true_eq] at hcovers
      exact ⟨band, List.mem_of_find?_eq_some hfind, hcovers.1, hcovers.2, rfl⟩

/-- The entries for prefixes in the one-byte map are those of the prefix bytes. -/
theorem kind_oneByte_eq_prefixByte_iff (byte : UInt8) :
    (Opcode.mk .oneByte byte).entry.kind = .prefixByte ↔ isPrefixByte byte = true := by
  have h : ∀ bits : BitVec 8,
      (Opcode.mk .oneByte ⟨bits⟩).entry.kind = .prefixByte ↔ isPrefixByte ⟨bits⟩ = true := by
    decide +kernel
  exact h byte.toBitVec

/-- A defined opcode can be read. -/
theorem isReachable_of_defined (h : opcode.entry.kind = .defined) : opcode.IsReachable := by
  obtain ⟨map, byte⟩ := opcode
  refine ⟨?_, ?_⟩
  · intro hmap hbyte
    subst hmap hbyte
    exact absurd h (by decide)
  · intro hmap
    subst hmap
    refine ⟨?_, ?_⟩
    · intro hbyte
      subst hbyte
      exact absurd h (by decide)
    · intro hbyte
      subst hbyte
      exact absurd h (by decide)

/-- The bytes of a defined opcode start with a byte that is no prefix. -/
theorem exists_encoding_eq_cons (h : opcode.entry.kind = .defined) :
    ∃ first rest, opcode.encoding = first :: rest ∧ isPrefixByte first = false := by
  obtain ⟨map, byte⟩ := opcode
  cases map with
  | oneByte =>
      refine ⟨byte, [], rfl, ?_⟩
      rw [← Bool.not_eq_true, ← kind_oneByte_eq_prefixByte_iff, h]
      decide
  | twoByte | threeByte38 | threeByte3A => exact ⟨0x0F, _, rfl, by decide⟩

/-- POP takes a ModR/M byte. -/
theorem modrm_pop : pop.entry.modrm = .present := by
  decide

end LongMode.Opcode
