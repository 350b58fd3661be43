import LongMode.Json.Codec
import LongMode.Settings

/-!
# Settings as JSON

Any field of the settings may be left out and then has its default; an array
may leave out fields at its end.  The length limit is read as it is written,
without bringing it within its range.
-/

namespace LongMode

open Json

/-- The name of a REX policy. -/
def RexPolicy.name : RexPolicy → String
  | .strict => "strict"
  | .lenient => "lenient"

instance : JsonCodec RexPolicy where
  toJson policy := .str policy.name
  ofJson? := named? <| [.strict, .lenient].map fun policy => (RexPolicy.name policy, policy)

/-- The names of the fields of the settings. -/
def Settings.keys : List String :=
  ["max_length", "rex_policy", "report_truncation"]

/-- The members of settings, from an object or from an array of the first fields. -/
def Settings.members? : Json → Option (List (String × Json))
  | .obj members => some members
  | .arr items => if items.length ≤ keys.length then some (keys.zip items) else none
  | _ => none

instance : JsonCodec Settings where
  toJson settings :=
    .obj [
      ("max_length", toJson settings.maxLength),
      ("rex_policy", toJson settings.rexPolicy),
      ("report_truncation", toJson settings.reportTruncation)]
  ofJson? json := do
    let default : Settings := {}
    let members ← Settings.members? json
    let maxLength ← fieldD? members "max_length" default.maxLength
    let rexPolicy ← fieldD? members "rex_policy" default.rexPolicy
    let reportTruncation ← fieldD? members "report_truncation" default.reportTruncation
    pure { maxLength, rexPolicy, reportTruncation }

end LongMode
