import LongMode.CommandLine.Arguments
import LongMode.CommandLine.Run

/-!
# The command line

A run of the command line as a function of its arguments and of the files it
can read.
-/

namespace LongMode.CommandLine

/-- The lines shown on a request for help. -/
def helpLines : List String := [
  "Decode a flat file of x86-64 machine code",
  "",
  "Usage: xv [OPTIONS] <FILE>",
  "",
  "Arguments:",
  "  <FILE>  Path to the raw code file",
  "",
  "Options:",
  "  -b, --base <BASE>              Logical address of the first byte (hex) [default: 0]",
  "  -d, --dump                     Print a hex dump of the file before decoding",
  "  -r, --resync                   Skip one byte after a malformed or conflicting encoding and continue",
  "      --json                     Emit one JSON object per line",
  "      --max-length <MAX_LENGTH>  Reject instructions longer than this many bytes [default: 15]",
  "      --lenient-rex              Drop a REX prefix that is followed by a legacy prefix instead of failing",
  "      --report-truncation        Report truncated instructions instead of end of input",
  "  -v, --verbose...               Increase log verbosity (-v debug, -vv trace)",
  "  -h, --help                     Print help"]

/-- The file that a run with the given arguments reads. -/
def requestedFile? (arguments : List String) : Option String :=
  match readArguments arguments with
  | .ok (.decode options) => some options.file
  | _ => none

/-- What a run with the given arguments shows. -/
def execute (arguments : List String) (readFile : String → Option (List UInt8)) :
    Except Error Output :=
  match readArguments arguments with
  | .error error => .error (.usage error)
  | .ok .help => .ok { lines := helpLines, events := [] }
  | .ok (.decode options) => respond options (readFile options.file)

/-- A run depends on no file but the one it reads. -/
theorem execute_eq_of_requestedFile? (arguments : List String)
    (readFile : String → Option (List UInt8)) :
    execute arguments readFile =
      execute arguments fun _ => (requestedFile? arguments).bind readFile := by
  unfold execute requestedFile?
  cases readArguments arguments with
  | error error => rfl
  | ok request =>
      cases request with
      | help => rfl
      | decode options => rfl

end LongMode.CommandLine
