import LongMode.Event
import LongMode.Settings
import LongMode.Text.Numeral

/-!
# Command line options

What a run of the command line is asked to do, and how it can be asked wrongly.
-/

namespace LongMode.CommandLine

/-- What to decode, and how to show it. -/
structure Options where
  file : String
  /-- The logical address of the first byte. -/
  base : UInt64 := 0
  /-- Show a hex dump first. -/
  dump : Bool := false
  /-- Go on one byte after a failure that allows it. -/
  resync : Bool := false
  /-- Show JSON lines instead of text. -/
  json : Bool := false
  maxLength : Nat := architecturalLimit
  lenientRex : Bool := false
  reportTruncation : Bool := false
  verbosity : Nat := 0
deriving DecidableEq, Repr

namespace Options

/-- The decoder settings the options ask for. -/
def settings (options : Options) : Settings :=
  Settings.withReportTruncation
    (Settings.withRexPolicy
      (Settings.withMaxLength {} options.maxLength)
      (if options.lenientRex then .lenient else .strict))
    options.reportTruncation

/-- The least important level of events that are shown. -/
def level (options : Options) : Level :=
  match options.verbosity with
  | 0 => .warn
  | 1 => .debug
  | _ => .trace

end Options

/-- What is wrong with the arguments of a run. -/
inductive UsageError where
  | unexpectedArgument (argument : String)
  | unexpectedValue (value label : String)
  | missingValue (label : String)
  | repeated (label : String)
  | invalidValue (value label : String) (reason : Numeral.Error)
  | missingFile
deriving DecidableEq, Repr

/-- A text in single quotes. -/
def quoted (text : String) : String :=
  "'" ++ text ++ "'"

/-- The wording of a usage error. -/
def UsageError.message : UsageError → String
  | .unexpectedArgument argument => "unexpected argument " ++ quoted argument ++ " found"
  | .unexpectedValue value label =>
      "unexpected value " ++ quoted value ++ " for " ++ quoted label
        ++ " found; no more were expected"
  | .missingValue label => "a value is required for " ++ quoted label ++ " but none was supplied"
  | .repeated label => "the argument " ++ quoted label ++ " cannot be used multiple times"
  | .invalidValue value label reason =>
      "invalid value " ++ quoted value ++ " for " ++ quoted label ++ ": " ++ reason.message
  | .missingFile => "the following required arguments were not provided:"

/-- Why a run fails. -/
inductive Error where
  | usage (error : UsageError)
  | unreadable (path : String)
  /-- No byte is left to pass over after a failure. -/
  | unskippable (address : UInt64)
deriving DecidableEq, Repr

namespace Error

/-- The wording of an error. -/
def message : Error → String
  | .usage error => error.message
  | .unreadable path => "Failed to read " ++ path
  | .unskippable address => "Failed to skip byte at " ++ Hex.marked address.toNat

/-- The exit code of a run that fails. -/
def exitCode : Error → UInt8
  | .usage _ => 2
  | .unreadable _ => 1
  | .unskippable _ => 1

end Error

end LongMode.CommandLine
