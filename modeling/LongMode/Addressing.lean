import LongMode.OperandByte
import LongMode.Prefixes
import LongMode.Reader

/-!
# Operand addressing

The ModR/M byte names a register and a second operand, which is a register or a
place in memory.  A memory operand may take an SIB byte and a displacement; the
mode and r/m fields of ModR/M and the base field of SIB decide which of them
follow.  REX bits extend the register fields to four bits and never change the
form of the operand.
-/

namespace LongMode

/-- The fields of a ModR/M byte. -/
structure ModRM where
  mode : UInt8
  /-- The first operand, extended by REX.R. -/
  reg : UInt8
  /-- The second operand, extended by REX.B. -/
  rm : UInt8
deriving DecidableEq, Repr

namespace ModRM

/-- The fields of a byte, extended by REX bits. -/
def ofByte (byte : UInt8) (rex : Rex) : ModRM where
  mode := OperandByte.high byte
  reg := OperandByte.extend (OperandByte.middle byte) rex.r
  rm := OperandByte.extend (OperandByte.low byte) rex.b

/-- The byte with these fields, less their REX bits. -/
def toByte (modrm : ModRM) : UInt8 :=
  OperandByte.join modrm.mode modrm.reg modrm.rm

/-- Whether the second operand is a register. -/
def isRegister (modrm : ModRM) : Bool :=
  modrm.mode == 3

/-- Whether an SIB byte follows. -/
def needsSib (modrm : ModRM) : Bool :=
  modrm.mode != 3 && OperandByte.low modrm.rm == 4

/-- Whether the operand is addressed relative to the next instruction. -/
def isRipRelative (modrm : ModRM) : Bool :=
  modrm.mode == 0 && OperandByte.low modrm.rm == 5

end ModRM

/-- The fields of an SIB byte. -/
structure Sib where
  /-- The binary logarithm of the scale factor. -/
  scale : UInt8
  /-- The index register, extended by REX.X. -/
  index : UInt8
  /-- The base register, extended by REX.B. -/
  base : UInt8
deriving DecidableEq, Repr

namespace Sib

/-- The fields of a byte, extended by REX bits. -/
def ofByte (byte : UInt8) (rex : Rex) : Sib where
  scale := OperandByte.high byte
  index := OperandByte.extend (OperandByte.middle byte) rex.x
  base := OperandByte.extend (OperandByte.low byte) rex.b

/-- The byte with these fields, less their REX bits. -/
def toByte (sib : Sib) : UInt8 :=
  OperandByte.join sib.scale sib.index sib.base

/-- What the index register is multiplied by. -/
def scaleFactor (sib : Sib) : UInt8 :=
  1 <<< sib.scale

/-- The index register.  Number 4 stands for no index. -/
def indexRegister? (sib : Sib) : Option UInt8 :=
  if sib.index = 4 then none else some sib.index

/-- Whether the base field stands for no base register when the mode is 0. -/
def isBaseless (sib : Sib) : Bool :=
  OperandByte.low sib.base == 5

end Sib

/-- The size of the displacement of a memory operand. -/
inductive DisplacementSize where
  | absent
  | byte
  | doubleword
deriving DecidableEq, Repr

/-- A displacement size in bytes. -/
def DisplacementSize.bytes : DisplacementSize → Nat
  | .absent => 0
  | .byte => 1
  | .doubleword => 4

/-- How an opcode uses the ModR/M byte. -/
inductive ModRMUsage where
  /-- No ModR/M byte follows. -/
  | absent
  /-- A ModR/M byte follows, with all forms of operands. -/
  | present
  /-- A ModR/M byte follows, and its second operand is a register in every mode. -/
  | registerOnly
deriving DecidableEq, Repr

/-- The operands of one instruction as its ModR/M and SIB bytes give them. -/
structure Addressing where
  modrm : ModRM
  sib : Option Sib
  displacementSize : DisplacementSize
  /-- Whether the operand is addressed relative to the next instruction. -/
  ripRelative : Bool
  /-- Whether the second operand is a register. -/
  registerDirect : Bool
deriving DecidableEq, Repr

namespace Addressing

/-- Whether the second operand is a register. -/
def isRegister (addressing : Addressing) : Bool :=
  addressing.registerDirect

/-- Whether the second operand is a place in memory. -/
def isMemory (addressing : Addressing) : Bool :=
  !addressing.registerDirect

/-- The base register of a memory operand that has one. -/
def baseRegister? (addressing : Addressing) : Option UInt8 :=
  if addressing.registerDirect ∨ addressing.ripRelative then none
  else
    match addressing.sib with
    | some sib =>
        if addressing.modrm.mode = 0 ∧ sib.isBaseless then none else some sib.base
    | none => some addressing.modrm.rm

/-- The index register of a memory operand that has one. -/
def indexRegister? (addressing : Addressing) : Option UInt8 :=
  addressing.sib.bind Sib.indexRegister?

/-- The register form of a ModR/M byte. -/
def ofRegister (modrm : ModRM) : Addressing where
  modrm
  sib := none
  displacementSize := .absent
  ripRelative := false
  registerDirect := true

/-- The displacement size of a memory operand. -/
def memoryDisplacement (modrm : ModRM) (sib : Option Sib) : DisplacementSize :=
  if modrm.mode = 0 then
    match sib with
    | some sib => if sib.isBaseless then .doubleword else .absent
    | none => if modrm.isRipRelative then .doubleword else .absent
  else if modrm.mode = 1 then .byte
  else .doubleword

/-- The memory form of a ModR/M byte and its SIB byte. -/
def ofMemory (modrm : ModRM) (sib : Option Sib) : Addressing where
  modrm
  sib
  displacementSize := memoryDisplacement modrm sib
  ripRelative := modrm.isRipRelative
  registerDirect := false

/-- Reads the SIB byte, where ModR/M asks for one. -/
def readSib (modrm : ModRM) (rex : Rex) : Reader (Option Sib) := do
  if modrm.needsSib then
    let byte ← Reader.byte
    pure (some (Sib.ofByte byte rex))
  else pure none

/-- Reads a displacement, extended by its sign. -/
def readDisplacement : DisplacementSize → Reader (Option Int32)
  | .absent => pure none
  | .byte => do
      let byte ← Reader.byte
      pure (some byte.toInt8.toInt32)
  | .doubleword => do
      let number ← Reader.littleEndian 4
      pure (some number.toUInt32.toInt32)

/-- Reads the ModR/M byte, the SIB byte and the displacement. -/
def read (rex : Rex) (usage : ModRMUsage) : Reader (Addressing × Option Int32) := do
  let byte ← Reader.byte
  let modrm := ModRM.ofByte byte rex
  if usage = .registerOnly ∨ modrm.isRegister then pure (ofRegister modrm, none)
  else do
    let sib ← readSib modrm rex
    let addressing := ofMemory modrm sib
    let displacement ← readDisplacement addressing.displacementSize
    pure (addressing, displacement)

/-- The bytes of the operand forms: ModR/M, then SIB. -/
def encoding (addressing : Addressing) : List UInt8 :=
  addressing.modrm.toByte :: addressing.sib.toList.map Sib.toByte

end Addressing

end LongMode
