import LongMode.CommandLine.Options

/-!
# Reading arguments

Arguments are read from the left.  A long option may carry a value behind an
equals sign; short options without a value may be written in a cluster, and a
short option with a value takes the rest of its cluster.  An argument of two
hyphens ends the options.

A value that stands in an argument of its own is checked late, when the next
option or file is recognised or the arguments end.  So an argument that is not
recognised is reported before a bad value in front of it.
-/

namespace LongMode.CommandLine

/-- The options that take a value. -/
inductive ValueOption where
  | base
  | maxLength
deriving DecidableEq, Repr

/-- How an option with a value is shown. -/
def ValueOption.label : ValueOption → String
  | .base => "--base <BASE>"
  | .maxLength => "--max-length <MAX_LENGTH>"

/-- The options without a value that may be given once. -/
inductive Switch where
  | dump
  | resync
  | json
  | lenientRex
  | reportTruncation
deriving DecidableEq, Repr

/-- How a switch is shown. -/
def Switch.label : Switch → String
  | .dump => "--dump"
  | .resync => "--resync"
  | .json => "--json"
  | .lenientRex => "--lenient-rex"
  | .reportTruncation => "--report-truncation"

/-- The options without a value. -/
inductive Flag where
  | switch (which : Switch)
  | verbose
  | help
deriving DecidableEq, Repr

/-- How an option without a value is shown. -/
def Flag.label : Flag → String
  | .switch which => which.label
  | .verbose => "--verbose..."
  | .help => "--help"

/-- An option by name. -/
inductive Named where
  | value (which : ValueOption)
  | flag (which : Flag)
deriving DecidableEq, Repr

/-- The option a long name stands for. -/
def Named.ofLong? (name : String) : Option Named :=
  List.lookup name [
    ("base", .value .base),
    ("dump", .flag (.switch .dump)),
    ("resync", .flag (.switch .resync)),
    ("json", .flag (.switch .json)),
    ("max-length", .value .maxLength),
    ("lenient-rex", .flag (.switch .lenientRex)),
    ("report-truncation", .flag (.switch .reportTruncation)),
    ("verbose", .flag .verbose),
    ("help", .flag .help)]

/-- The option a letter stands for. -/
def Named.ofShort? (letter : Char) : Option Named :=
  List.lookup letter [
    ('b', .value .base),
    ('d', .flag (.switch .dump)),
    ('r', .flag (.switch .resync)),
    ('v', .flag .verbose),
    ('h', .flag .help)]

/-- The shape of an argument. -/
inductive Argument where
  /-- Two hyphens. -/
  | separator
  /-- A long option, with the value behind its equals sign. -/
  | long (name : String) (value : Option String)
  /-- Short options behind one hyphen. -/
  | cluster (letters : List Char)
  /-- Anything else. -/
  | plain (text : String)
deriving DecidableEq, Repr

/-- A name and the value behind the first equals sign. -/
def splitValue (text : List Char) : String × Option String :=
  let name := String.ofList (text.takeWhile (· ≠ '='))
  match text.dropWhile (· ≠ '=') with
  | [] => (name, none)
  | _ :: value => (name, some (String.ofList value))

/-- The shape of an argument. -/
def Argument.ofString (text : String) : Argument :=
  match text.toList with
  | ['-', '-'] => .separator
  | '-' :: '-' :: rest =>
      let (name, value) := splitValue rest
      .long name value
  | '-' :: letter :: rest => .cluster (letter :: rest)
  | _ => .plain text

/-- What the arguments have given so far. -/
structure Given where
  file : Option String := none
  base : Option UInt64 := none
  maxLength : Option Nat := none
  switches : List Switch := []
  verbosity : Nat := 0
deriving DecidableEq, Repr

/-- An argument whose value has not been checked. -/
inductive Pending where
  | file (path : String)
  | option (which : ValueOption) (value : Option String)
deriving DecidableEq, Repr

namespace Given

/-- Checks and keeps the value of an option. -/
def store (given : Given) (value : String) : ValueOption → Except UsageError Given
  | .base =>
      if given.base.isSome then .error (.repeated ValueOption.base.label)
      else
        match Numeral.readHexadecimal value with
        | .ok base => .ok { given with base := some base }
        | .error reason => .error (.invalidValue value ValueOption.base.label reason)
  | .maxLength =>
      if given.maxLength.isSome then .error (.repeated ValueOption.maxLength.label)
      else
        match Numeral.readDecimal value with
        | .ok maxLength => .ok { given with maxLength := some maxLength }
        | .error reason => .error (.invalidValue value ValueOption.maxLength.label reason)

/-- Checks and keeps what is pending. -/
def settle (given : Given) : Option Pending → Except UsageError Given
  | none => .ok given
  | some (.file path) =>
      if path = "" then .error (.missingValue "<FILE>")
      else .ok { given with file := some path }
  | some (.option option none) => .error (.missingValue option.label)
  | some (.option option (some value)) => given.store value option

/-- The options of a run for which a file is given. -/
def toOptions (given : Given) (file : String) : Options where
  file
  base := given.base.getD 0
  dump := given.switches.contains .dump
  resync := given.switches.contains .resync
  json := given.switches.contains .json
  maxLength := given.maxLength.getD architecturalLimit
  lenientRex := given.switches.contains .lenientRex
  reportTruncation := given.switches.contains .reportTruncation
  verbosity := given.verbosity

end Given

/-- The state of reading arguments. -/
structure State where
  given : Given := {}
  pending : Option Pending := none
deriving DecidableEq, Repr

/-- What an argument leads to. -/
inductive Step where
  | proceed (state : State)
  | help
deriving DecidableEq, Repr

/-- What the arguments ask for. -/
inductive Command where
  | help
  | decode (options : Options)
deriving DecidableEq, Repr

namespace State

/-- Takes an option without a value. -/
def takeFlag (state : State) (flag : Flag) : Except UsageError Step := do
  let given ← state.given.settle state.pending
  match flag with
  | .help => .ok .help
  | .verbose => .ok (.proceed { given := { given with verbosity := given.verbosity + 1 } })
  | .switch switch =>
      if given.switches.contains switch then .error (.repeated switch.label)
      else .ok (.proceed { given := { given with switches := switch :: given.switches } })

/-- Takes an option with a value, which may stand in the same argument. -/
def takeOption (state : State) (option : ValueOption) (value : Option String) :
    Except UsageError Step := do
  let given ← state.given.settle state.pending
  match value with
  | some value =>
      let given ← given.store value option
      .ok (.proceed { given })
  | none => .ok (.proceed { given, pending := some (.option option none) })

/-- Takes a long option. -/
def takeLong (state : State) (name : String) (value : Option String) : Except UsageError Step :=
  match Named.ofLong? name, value with
  | some (.value option), _ => state.takeOption option value
  | some (.flag flag), none => state.takeFlag flag
  | some (.flag flag), some value => .error (.unexpectedValue value flag.label)
  | none, _ => .error (.unexpectedArgument ("--" ++ name))

/-- The value in the rest of a cluster, where there is one.  An equals sign in
    front of it does not belong to it. -/
def clusterValue? : List Char → Option String
  | [] => none
  | '=' :: value => some (String.ofList value)
  | value => some (String.ofList value)

/-- Takes a cluster of short options. -/
def takeCluster (state : State) : List Char → Except UsageError Step
  | [] => .ok (.proceed state)
  | letter :: rest =>
      match Named.ofShort? letter with
      | some (.value option) => state.takeOption option (clusterValue? rest)
      | some (.flag flag) => do
          match ← state.takeFlag flag with
          | .proceed state => state.takeCluster rest
          | .help => .ok .help
      | none => .error (.unexpectedArgument (String.ofList ['-', letter]))

/-- Whether a file has been named. -/
def hasFile (state : State) : Bool :=
  match state.pending with
  | some (.file _) => true
  | _ => state.given.file.isSome

/-- Takes an argument for the file. -/
def takeFile (state : State) (path : String) : Except UsageError State :=
  if state.hasFile then .error (.unexpectedArgument path)
  else do
    let given ← state.given.settle state.pending
    .ok { given, pending := some (.file path) }

/-- Takes an argument that is no option: the value of an option that waits for
    one, or the file. -/
def takePlain (state : State) (text : String) : Except UsageError State :=
  match state.pending with
  | some (.option option none) =>
      .ok { state with pending := some (.option option (some text)) }
  | _ => state.takeFile text

/-- What is asked for when the arguments end. -/
def finish (state : State) : Except UsageError Command := do
  let given ← state.given.settle state.pending
  match given.file with
  | some file => .ok (.decode (given.toOptions file))
  | none => .error .missingFile

/-- Takes the remaining arguments. -/
def takeAll (state : State) : List String → Except UsageError Command
  | [] => state.finish
  | argument :: rest =>
      match Argument.ofString argument with
      | .separator => do
          let state ← rest.foldlM takeFile state
          state.finish
      | .long name value => do
          match ← state.takeLong name value with
          | .proceed state => state.takeAll rest
          | .help => .ok .help
      | .cluster letters => do
          match ← state.takeCluster letters with
          | .proceed state => state.takeAll rest
          | .help => .ok .help
      | .plain text => do
          let state ← state.takePlain text
          state.takeAll rest

end State

/-- What the arguments of a run ask for. -/
def readArguments (arguments : List String) : Except UsageError Command :=
  State.takeAll {} arguments

end LongMode.CommandLine
