import LongMode.Immediate
import LongMode.Opcode

/-!
# Opcode tables

For every opcode the tables say whether it is defined in long mode and, if so,
what follows it: a ModR/M byte or none, and which kind of immediate.  A map is
given as bands of neighbouring opcodes with the same entry; bytes outside all
bands have no encoding.  The bands of a map ascend and do not overlap.
-/

namespace LongMode

/-- What an opcode byte is. -/
inductive EntryKind where
  /-- Nothing is defined, or nothing that is valid in long mode. -/
  | invalid
  /-- A prefix byte. -/
  | prefixByte
  /-- An escape byte into another map. -/
  | escape
  /-- The lead byte of an encoding family outside the four maps. -/
  | unsupported
  /-- An instruction. -/
  | defined
deriving DecidableEq, Repr

/-- An entry of an opcode table. -/
structure Entry where
  kind : EntryKind
  modrm : ModRMUsage := .absent
  immediate : ImmediateKind := .absent
deriving DecidableEq, Repr

namespace Entry

/-- No instruction. -/
def invalid : Entry := { kind := .invalid }

/-- A prefix byte. -/
def prefixByte : Entry := { kind := .prefixByte }

/-- An escape byte. -/
def escape : Entry := { kind := .escape }

/-- A lead byte of an encoding family outside the four maps. -/
def unsupported : Entry := { kind := .unsupported }

/-- An instruction with neither ModR/M byte nor immediate. -/
def plain : Entry := { kind := .defined }

/-- An instruction with a ModR/M byte. -/
def withModRM : Entry := { kind := .defined, modrm := .present }

/-- The entry with an immediate. -/
def withImmediate (entry : Entry) (immediate : ImmediateKind) : Entry :=
  { entry with immediate }

/-- The entry with a ModR/M byte that names registers in every mode. -/
def registerOnly (entry : Entry) : Entry :=
  { entry with modrm := .registerOnly }

/-- Whether the entry is an instruction. -/
def isDefined (entry : Entry) : Bool :=
  entry.kind == .defined

end Entry

/-- Neighbouring opcode bytes with one entry. -/
structure Band where
  first : UInt8
  last : UInt8
  entry : Entry
deriving DecidableEq, Repr

namespace Band

/-- A band of one byte. -/
def single (byte : UInt8) (entry : Entry) : Band :=
  { first := byte, last := byte, entry }

/-- Whether a byte lies in a band. -/
def covers (band : Band) (byte : UInt8) : Bool :=
  band.first ≤ byte && byte ≤ band.last

/-- The six opcodes of an arithmetic operation: four with ModR/M, two with an
    immediate for the accumulator. -/
def arithmeticRow (first : UInt8) : List Band :=
  [⟨first, first + 3, .withModRM⟩,
    .single (first + 4) (Entry.plain.withImmediate .byte),
    .single (first + 5) (Entry.plain.withImmediate .operandSized)]

/-- The one-byte map. -/
def oneByte : List Band :=
  -- ADD, OR
  arithmeticRow 0x00 ++ arithmeticRow 0x08 ++ [.single 0x0F .escape]
  -- ADC, SBB
  ++ arithmeticRow 0x10 ++ arithmeticRow 0x18
  -- AND, SUB, XOR, CMP, each followed by a segment override
  ++ arithmeticRow 0x20 ++ [.single 0x26 .prefixByte]
  ++ arithmeticRow 0x28 ++ [.single 0x2E .prefixByte]
  ++ arithmeticRow 0x30 ++ [.single 0x36 .prefixByte]
  ++ arithmeticRow 0x38 ++ [.single 0x3E .prefixByte]
  ++ ([
    -- REX
    ⟨0x40, 0x4F, .prefixByte⟩,
    -- PUSH, POP
    ⟨0x50, 0x5F, .plain⟩,
    -- EVEX
    .single 0x62 .unsupported,
    -- MOVSXD
    .single 0x63 .withModRM,
    ⟨0x64, 0x67, .prefixByte⟩,
    -- PUSH and IMUL with an immediate
    .single 0x68 (Entry.plain.withImmediate .operandSized),
    .single 0x69 (Entry.withModRM.withImmediate .operandSized),
    .single 0x6A (Entry.plain.withImmediate .byte),
    .single 0x6B (Entry.withModRM.withImmediate .byte),
    -- INS, OUTS
    ⟨0x6C, 0x6F, .plain⟩,
    -- short conditional jumps
    ⟨0x70, 0x7F, Entry.plain.withImmediate .byte⟩,
    -- arithmetic with an immediate
    .single 0x80 (Entry.withModRM.withImmediate .byte),
    .single 0x81 (Entry.withModRM.withImmediate .operandSized),
    .single 0x83 (Entry.withModRM.withImmediate .byte),
    -- TEST, XCHG, MOV, LEA, POP
    ⟨0x84, 0x8F, .withModRM⟩,
    -- XCHG, sign extensions
    ⟨0x90, 0x99, .plain⟩,
    -- FWAIT and flag transfers
    ⟨0x9B, 0x9F, .plain⟩,
    -- MOV with an absolute address
    ⟨0xA0, 0xA3, Entry.plain.withImmediate .memoryOffset⟩,
    -- MOVS, CMPS
    ⟨0xA4, 0xA7, .plain⟩,
    -- TEST with an immediate
    .single 0xA8 (Entry.plain.withImmediate .byte),
    .single 0xA9 (Entry.plain.withImmediate .operandSized),
    -- STOS, LODS, SCAS
    ⟨0xAA, 0xAF, .plain⟩,
    -- MOV with an immediate
    ⟨0xB0, 0xB7, Entry.plain.withImmediate .byte⟩,
    ⟨0xB8, 0xBF, Entry.plain.withImmediate .operandSizedFull⟩,
    -- shifts by an immediate
    ⟨0xC0, 0xC1, Entry.withModRM.withImmediate .byte⟩,
    -- RET
    .single 0xC2 (Entry.plain.withImmediate .word),
    .single 0xC3 .plain,
    -- VEX
    ⟨0xC4, 0xC5, .unsupported⟩,
    -- MOV to memory with an immediate
    .single 0xC6 (Entry.withModRM.withImmediate .byte),
    .single 0xC7 (Entry.withModRM.withImmediate .operandSized),
    -- ENTER, LEAVE
    .single 0xC8 (Entry.plain.withImmediate .enter),
    .single 0xC9 .plain,
    -- far RET, interrupts
    .single 0xCA (Entry.plain.withImmediate .word),
    ⟨0xCB, 0xCC, .plain⟩,
    .single 0xCD (Entry.plain.withImmediate .byte),
    .single 0xCF .plain,
    -- shifts by one and by CL
    ⟨0xD0, 0xD3, .withModRM⟩,
    -- XLAT
    .single 0xD7 .plain,
    -- x87
    ⟨0xD8, 0xDF, .withModRM⟩,
    -- LOOP, JRCXZ, IN and OUT with an immediate
    ⟨0xE0, 0xE7, Entry.plain.withImmediate .byte⟩,
    -- CALL, JMP
    ⟨0xE8, 0xE9, Entry.plain.withImmediate .doubleword⟩,
    .single 0xEB (Entry.plain.withImmediate .byte),
    -- IN and OUT through DX
    ⟨0xEC, 0xEF, .plain⟩,
    .single 0xF0 .prefixByte,
    .single 0xF1 .plain,
    ⟨0xF2, 0xF3, .prefixByte⟩,
    ⟨0xF4, 0xF5, .plain⟩,
    -- TEST, NOT, NEG, MUL, DIV
    .single 0xF6 (Entry.withModRM.withImmediate .testByte),
    .single 0xF7 (Entry.withModRM.withImmediate .testOperandSized),
    -- flag operations
    ⟨0xF8, 0xFD, .plain⟩,
    -- INC, DEC, indirect CALL and JMP, PUSH
    ⟨0xFE, 0xFF, .withModRM⟩] : List Band)

/-- The two-byte map. -/
def twoByte : List Band := [
  -- system groups, LAR, LSL
  ⟨0x00, 0x03, .withModRM⟩,
  -- SYSCALL, CLTS, SYSRET, INVD, WBINVD
  ⟨0x05, 0x09, .plain⟩,
  -- UD2
  .single 0x0B .plain,
  -- PREFETCHW
  .single 0x0D .withModRM,
  -- FEMMS
  .single 0x0E .plain,
  -- 3DNow, whose operation is a byte after the operands
  .single 0x0F (Entry.withModRM.withImmediate .byte),
  -- SSE moves, hints, prefetches
  ⟨0x10, 0x1F, .withModRM⟩,
  -- MOV with control and debug registers
  ⟨0x20, 0x23, Entry.withModRM.registerOnly⟩,
  ⟨0x28, 0x2F, .withModRM⟩,
  -- model-specific registers, SYSENTER, SYSEXIT
  ⟨0x30, 0x35, .plain⟩,
  -- GETSEC
  .single 0x37 .plain,
  .single 0x38 .escape,
  .single 0x3A .escape,
  -- CMOV, SSE and MMX arithmetic
  ⟨0x40, 0x6F, .withModRM⟩,
  -- shuffles and shifts by an immediate
  ⟨0x70, 0x73, Entry.withModRM.withImmediate .byte⟩,
  ⟨0x74, 0x76, .withModRM⟩,
  -- EMMS
  .single 0x77 .plain,
  -- VMREAD, EXTRQ, INSERTQ
  .single 0x78 (Entry.withModRM.withImmediate .byteExtract),
  -- VMWRITE
  .single 0x79 .withModRM,
  ⟨0x7C, 0x7F, .withModRM⟩,
  -- near conditional jumps
  ⟨0x80, 0x8F, Entry.plain.withImmediate .doubleword⟩,
  -- SET
  ⟨0x90, 0x9F, .withModRM⟩,
  -- PUSH and POP of FS, CPUID
  ⟨0xA0, 0xA2, .plain⟩,
  -- BT, SHLD
  .single 0xA3 .withModRM,
  .single 0xA4 (Entry.withModRM.withImmediate .byte),
  .single 0xA5 .withModRM,
  -- PUSH and POP of GS, RSM
  ⟨0xA8, 0xAA, .plain⟩,
  -- BTS, SHRD
  .single 0xAB .withModRM,
  .single 0xAC (Entry.withModRM.withImmediate .byte),
  -- SHRD by CL, state saves, IMUL
  ⟨0xAD, 0xAF, .withModRM⟩,
  -- CMPXCHG, far pointers, BTR, MOVZX, POPCNT, UD1
  ⟨0xB0, 0xB9, .withModRM⟩,
  -- bit tests with an immediate
  .single 0xBA (Entry.withModRM.withImmediate .byte),
  -- BTC, BSF, BSR, MOVSX
  ⟨0xBB, 0xBF, .withModRM⟩,
  -- XADD
  ⟨0xC0, 0xC1, .withModRM⟩,
  -- CMPPS
  .single 0xC2 (Entry.withModRM.withImmediate .byte),
  -- MOVNTI
  .single 0xC3 .withModRM,
  -- PINSRW, PEXTRW, SHUFPS
  ⟨0xC4, 0xC6, Entry.withModRM.withImmediate .byte⟩,
  -- CMPXCHG16B and its group
  .single 0xC7 .withModRM,
  -- BSWAP
  ⟨0xC8, 0xCF, .plain⟩,
  -- MMX, SSE2, UD0
  ⟨0xD0, 0xFF, .withModRM⟩]

/-- The three-byte map behind `0F 38`: operands without an immediate. -/
def threeByte38 : List Band := [
  -- SSSE3 arithmetic
  ⟨0x00, 0x0B, .withModRM⟩,
  -- variable blends, PTEST
  .single 0x10 .withModRM,
  ⟨0x14, 0x15, .withModRM⟩,
  .single 0x17 .withModRM,
  -- PABS
  ⟨0x1C, 0x1E, .withModRM⟩,
  -- PMOVSX
  ⟨0x20, 0x25, .withModRM⟩,
  -- PMULDQ, PCMPEQQ, MOVNTDQA, PACKUSDW
  ⟨0x28, 0x2B, .withModRM⟩,
  -- PMOVZX
  ⟨0x30, 0x35, .withModRM⟩,
  -- PCMPGTQ, PMIN, PMAX, PMULLD, PHMINPOSUW
  ⟨0x37, 0x41, .withModRM⟩,
  -- invalidations
  ⟨0x80, 0x82, .withModRM⟩,
  -- SHA
  ⟨0xC8, 0xCD, .withModRM⟩,
  -- GF2P8MULB
  .single 0xCF .withModRM,
  -- AES
  ⟨0xDB, 0xDF, .withModRM⟩,
  -- MOVBE, CRC32
  ⟨0xF0, 0xF1, .withModRM⟩,
  -- shadow stack writes, ADCX, ADOX
  ⟨0xF5, 0xF6, .withModRM⟩,
  -- direct stores
  ⟨0xF8, 0xF9, .withModRM⟩,
  -- remote atomic operations
  .single 0xFC .withModRM]

/-- The three-byte map behind `0F 3A`: operands and one byte of immediate. -/
def threeByte3A : List Band :=
  [
    -- rounding, blends, PALIGNR
    (0x08, 0x0F),
    -- extractions
    (0x14, 0x17),
    -- insertions
    (0x20, 0x22),
    -- dot products, MPSADBW
    (0x40, 0x42),
    -- PCLMULQDQ
    (0x44, 0x44),
    -- string comparisons
    (0x60, 0x63),
    -- SHA1RNDS4
    (0xCC, 0xCC),
    -- GF2P8AFFINEQB, GF2P8AFFINEINVQB
    (0xCE, 0xCF),
    -- AESKEYGENASSIST
    (0xDF, 0xDF)].map fun (first, last) =>
      ⟨first, last, Entry.withModRM.withImmediate .byte⟩

end Band

/-- The bands of a map. -/
def OpcodeMap.bands : OpcodeMap → List Band
  | .oneByte => Band.oneByte
  | .twoByte => Band.twoByte
  | .threeByte38 => Band.threeByte38
  | .threeByte3A => Band.threeByte3A

/-- The bands of every map ascend and do not overlap, so a byte lies in at most
    one of them. -/
theorem OpcodeMap.bands_ascend (map : OpcodeMap) :
    map.bands.Pairwise (fun lower upper => lower.last < upper.first) ∧
      ∀ band ∈ map.bands, band.first ≤ band.last := by
  cases map <;> decide +kernel

/-- The table entry of an opcode. -/
def Opcode.entry (opcode : Opcode) : Entry :=
  match opcode.map.bands.find? (·.covers opcode.byte) with
  | some band => band.entry
  | none => .invalid

end LongMode
