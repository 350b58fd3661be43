import LongMode.Failure
import LongMode.Json.Instruction

/-!
# Statuses as JSON

A malformation is a variant whose contents are an object; a status is a name,
or a variant that holds a malformation.
-/

namespace LongMode

open Json

instance : JsonCodec Malformation where
  toJson
    | .unmappedOpcode opcode =>
        .obj [("UnmappedOpcode", .obj [("class", toJson opcode)])]
    | .unsupported byte => .obj [("Unsupported", .obj [("byte", toJson byte)])]
    | .tooLong length limit =>
        .obj [("TooLong", .obj [("length", toJson length), ("max", toJson limit)])]
  ofJson? json :=
    match json.variant? with
    | some ("UnmappedOpcode", .obj members) => do
        let opcode ← field? members "class"
        pure (.unmappedOpcode opcode)
    | some ("Unsupported", .obj members) => do
        let byte ← field? members "byte"
        pure (.unsupported byte)
    | some ("TooLong", .obj members) => do
        let length ← field? members "length"
        let limit ← field? members "max"
        pure (.tooLong length limit)
    | _ => none

instance : JsonCodec Status where
  toJson
    | .success => .str "Success"
    | .endOfInput => .str "EndOfInput"
    | .malformed reason => .obj [("MalformedEncoding", toJson reason)]
    | .prefixConflict => .str "PrefixConflict"
    | .truncated => .str "Truncated"
  ofJson? json :=
    match json.variant? with
    | some ("MalformedEncoding", contents) => (ofJson? contents).map .malformed
    | _ =>
        json.named? [
          ("Success", .success),
          ("EndOfInput", .endOfInput),
          ("PrefixConflict", .prefixConflict),
          ("Truncated", .truncated)]

end LongMode
