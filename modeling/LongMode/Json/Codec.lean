import LongMode.Json

/-!
# Values as JSON

A `JsonCodec` writes the values of a type as JSON and reads them back.

* A record is an object with a member for each field.  Members of other names
  are passed over, and a field that may be absent may be left out.  An array
  with one item for each field, in order, is read as well.
* A variant without contents is its name, or an object whose only member has
  that name and the value null.  Any other variant is an object whose only
  member has its name.
* A number is read only where it is an integer that the field can hold.
-/

namespace LongMode

/-- How the values of a type are written and read as JSON. -/
class JsonCodec (α : Type) where
  toJson : α → Json
  ofJson? : Json → Option α

export JsonCodec (toJson ofJson?)

namespace Json

/-- A natural number below a bound. -/
def natural? (bound : Nat) : Json → Option Nat
  | .int (Int.ofNat value) => if value < bound then some value else none
  | _ => none

/-- The members of a record with the given fields, from an object or from an
    array of all fields in order. -/
def members? (keys : List String) : Json → Option (List (String × Json))
  | .obj members => some members
  | .arr items => if items.length = keys.length then some (keys.zip items) else none
  | _ => none

/-- The value of a field that has to be there. -/
def field? {α : Type} [JsonCodec α] (members : List (String × Json)) (key : String) : Option α :=
  match members.lookup key with
  | some json => ofJson? json
  | none => none

/-- The value of a field that has a default. -/
def fieldD? {α : Type} [JsonCodec α] (members : List (String × Json)) (key : String)
    (default : α) : Option α :=
  match members.lookup key with
  | some json => ofJson? json
  | none => some default

/-- The name of a variant without contents. -/
def plainVariant? : Json → Option String
  | .str name => some name
  | .obj [(name, .null)] => some name
  | _ => none

/-- The name and the contents of a variant. -/
def variant? : Json → Option (String × Json)
  | .obj [(name, contents)] => some (name, contents)
  | _ => none

/-- The value a name stands for in a table. -/
def named? {α : Type} (table : List (String × α)) (json : Json) : Option α :=
  json.plainVariant?.bind fun name => table.lookup name

end Json

instance : JsonCodec Bool where
  toJson := .bool
  ofJson?
    | .bool value => some value
    | _ => none

instance : JsonCodec UInt8 where
  toJson value := .int value.toNat
  ofJson? json := (json.natural? UInt8.size).map UInt8.ofNat

instance : JsonCodec UInt64 where
  toJson value := .int value.toNat
  ofJson? json := (json.natural? UInt64.size).map UInt64.ofNat

/-- Counts of bytes are read up to 64 bits. -/
instance : JsonCodec Nat where
  toJson value := .int value
  ofJson? json := json.natural? UInt64.size

instance : JsonCodec Int32 where
  toJson value := .int value.toInt
  ofJson?
    | .int value =>
        if Int32.minValue.toInt ≤ value ∧ value ≤ Int32.maxValue.toInt then
          some (Int32.ofInt value)
        else none
    | _ => none

instance {α : Type} [JsonCodec α] : JsonCodec (Option α) where
  toJson
    | some value => toJson value
    | none => .null
  ofJson?
    | .null => some none
    | json => (ofJson? json).map some

end LongMode
