import LongMode.CommandLine

/-!
# The program

Reads the file that the arguments name, prints what the run shows, and writes
events and errors to standard error.
-/

namespace LongMode.CommandLine

/-- The contents of a file, if it can be read. -/
def readContents (path : String) : IO (Option (List UInt8)) := do
  try
    let data ← IO.FS.readBinFile path
    pure (some data.toList)
  catch _ => pure none

/-- Prints the output of a run. -/
def printOutput (output : Output) : IO UInt32 := do
  for event in output.events do
    IO.eprintln ("[" ++ event.level.name ++ " " ++ event.source ++ "] " ++ event.text)
  for line in output.lines do
    IO.println line
  pure 0

/-- The word an error is announced with: capital for a run that was under way. -/
def announcement : Error → String
  | .usage _ => "error: "
  | .unreadable _ => "Error: "
  | .unskippable _ => "Error: "

/-- Prints why a run fails. -/
def printError (error : Error) : IO UInt32 := do
  IO.eprintln (announcement error ++ error.message)
  pure error.exitCode.toUInt32

/-- Runs the program and gives its exit code.  The file is read first: no run
    looks at another one. -/
def perform (arguments : List String) : IO UInt32 := do
  let contents ←
    match requestedFile? arguments with
    | some path => readContents path
    | none => pure none
  match execute arguments fun _ => contents with
  | .ok output => printOutput output
  | .error error => printError error

end LongMode.CommandLine

def main (arguments : List String) : IO UInt32 :=
  LongMode.CommandLine.perform arguments
