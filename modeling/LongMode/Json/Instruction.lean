import LongMode.Instruction
import LongMode.Json.Codec

/-!
# Instructions as JSON

The records that make up an instruction, with their fields in a fixed order.
-/

namespace LongMode

open Json

/-- The name of a map. -/
def OpcodeMap.name : OpcodeMap → String
  | .oneByte => "OneByte"
  | .twoByte => "TwoByte"
  | .threeByte38 => "ThreeByte38"
  | .threeByte3A => "ThreeByte3A"

/-- The maps by name. -/
def OpcodeMap.table : List (String × OpcodeMap) :=
  [.oneByte, .twoByte, .threeByte38, .threeByte3A].map fun map => (map.name, map)

instance : JsonCodec OpcodeMap where
  toJson map := .str map.name
  ofJson? := named? OpcodeMap.table

/-- An opcode is a variant named for its map. -/
instance : JsonCodec Opcode where
  toJson opcode := .obj [(opcode.map.name, toJson opcode.byte)]
  ofJson? json := do
    let (name, contents) ← json.variant?
    let map ← OpcodeMap.table.lookup name
    let byte ← ofJson? contents
    pure { map, byte }

/-- The name of a segment. -/
def Segment.name : Segment → String
  | .es => "ES"
  | .cs => "CS"
  | .ss => "SS"
  | .ds => "DS"
  | .fs => "FS"
  | .gs => "GS"

instance : JsonCodec Segment where
  toJson segment := .str segment.name
  ofJson? := named? <|
    [.es, .cs, .ss, .ds, .fs, .gs].map fun segment => (Segment.name segment, segment)

/-- The name of a repeat prefix. -/
def RepeatPrefix.name : RepeatPrefix → String
  | .rep => "Rep"
  | .repne => "Repne"

instance : JsonCodec RepeatPrefix where
  toJson kind := .str kind.name
  ofJson? := named? <| [.rep, .repne].map fun kind => (RepeatPrefix.name kind, kind)

instance : JsonCodec Rex where
  toJson rex :=
    .obj [("w", toJson rex.w), ("r", toJson rex.r), ("x", toJson rex.x), ("b", toJson rex.b)]
  ofJson? json := do
    let members ← json.members? ["w", "r", "x", "b"]
    let w ← field? members "w"
    let r ← field? members "r"
    let x ← field? members "x"
    let b ← field? members "b"
    pure { w, r, x, b }

instance : JsonCodec Prefixes where
  toJson prefixes :=
    .obj [
      ("segment", toJson prefixes.segment),
      ("operand_size", toJson prefixes.operandSize),
      ("address_size", toJson prefixes.addressSize),
      ("repeat", toJson prefixes.repetition),
      ("lock", toJson prefixes.lock),
      ("rex", toJson prefixes.rex),
      ("len", toJson prefixes.count)]
  ofJson? json := do
    let members ← json.members?
      ["segment", "operand_size", "address_size", "repeat", "lock", "rex", "len"]
    let segment ← fieldD? members "segment" none
    let operandSize ← field? members "operand_size"
    let addressSize ← field? members "address_size"
    let repetition ← fieldD? members "repeat" none
    let lock ← field? members "lock"
    let rex ← fieldD? members "rex" none
    let count ← field? members "len"
    pure { segment, operandSize, addressSize, repetition, lock, rex, count }

instance : JsonCodec ModRM where
  toJson modrm :=
    .obj [("mod_", toJson modrm.mode), ("reg", toJson modrm.reg), ("rm", toJson modrm.rm)]
  ofJson? json := do
    let members ← json.members? ["mod_", "reg", "rm"]
    let mode ← field? members "mod_"
    let reg ← field? members "reg"
    let rm ← field? members "rm"
    pure { mode, reg, rm }

instance : JsonCodec Sib where
  toJson sib :=
    .obj [("scale", toJson sib.scale), ("index", toJson sib.index), ("base", toJson sib.base)]
  ofJson? json := do
    let members ← json.members? ["scale", "index", "base"]
    let scale ← field? members "scale"
    let index ← field? members "index"
    let base ← field? members "base"
    pure { scale, index, base }

/-- The name of a displacement size. -/
def DisplacementSize.name : DisplacementSize → String
  | .absent => "None"
  | .byte => "Byte"
  | .doubleword => "Dword"

instance : JsonCodec DisplacementSize where
  toJson size := .str size.name
  ofJson? := named? <|
    [.absent, .byte, .doubleword].map fun size => (DisplacementSize.name size, size)

instance : JsonCodec Addressing where
  toJson addressing :=
    .obj [
      ("modrm", toJson addressing.modrm),
      ("sib", toJson addressing.sib),
      ("displacement_size", toJson addressing.displacementSize),
      ("rip_relative", toJson addressing.ripRelative),
      ("register_direct", toJson addressing.registerDirect)]
  ofJson? json := do
    let members ← json.members?
      ["modrm", "sib", "displacement_size", "rip_relative", "register_direct"]
    let modrm ← field? members "modrm"
    let sib ← fieldD? members "sib" none
    let displacementSize ← field? members "displacement_size"
    let ripRelative ← field? members "rip_relative"
    let registerDirect ← field? members "register_direct"
    pure { modrm, sib, displacementSize, ripRelative, registerDirect }

instance : JsonCodec Immediate where
  toJson immediate :=
    .obj [("value", toJson immediate.value), ("size", toJson immediate.size)]
  ofJson? json := do
    let members ← json.members? ["value", "size"]
    let value ← field? members "value"
    let size ← field? members "size"
    pure { value, size }

instance : JsonCodec Instruction where
  toJson instruction :=
    .obj [
      ("address", toJson instruction.address),
      ("length", toJson instruction.length),
      ("opcode", toJson instruction.opcode),
      ("prefixes", toJson instruction.prefixes),
      ("modrm", toJson instruction.addressing),
      ("displacement", toJson instruction.displacement),
      ("immediate", toJson instruction.immediate)]
  ofJson? json := do
    let members ← json.members?
      ["address", "length", "opcode", "prefixes", "modrm", "displacement", "immediate"]
    let address ← field? members "address"
    let length ← field? members "length"
    let opcode ← field? members "opcode"
    let prefixes ← field? members "prefixes"
    let addressing ← fieldD? members "modrm" none
    let displacement ← fieldD? members "displacement" none
    let immediate ← fieldD? members "immediate" none
    pure { address, length, opcode, prefixes, addressing, displacement, immediate }

end LongMode
