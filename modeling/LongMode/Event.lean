import LongMode.Failure
import LongMode.Instruction

/-!
# Log events

What the decoder and the command line report while they work.  An event has a
level and a source; its wording is made only when it is shown.
-/

namespace LongMode

/-- How important an event is, most important first. -/
inductive Level where
  | warn
  | info
  | debug
  | trace
deriving DecidableEq, Repr

namespace Level

/-- The rank of a level: the more important, the lower. -/
def rank : Level → Nat
  | .warn => 0
  | .info => 1
  | .debug => 2
  | .trace => 3

/-- The name a level is shown by. -/
def name : Level → String
  | .warn => "WARN"
  | .info => "INFO"
  | .debug => "DEBUG"
  | .trace => "TRACE"

end Level

/-- Something worth reporting. -/
inductive Event where
  /-- An instruction was decoded. -/
  | decoded (instruction : Instruction)
  /-- A decode call failed. -/
  | failed (failure : Failure)
  /-- A file was read. -/
  | fileRead (size : Nat) (path : String)
  /-- A byte is passed over after a failed decode call. -/
  | skipping (failure : Failure)
deriving DecidableEq, Repr

namespace Event

/-- The level of an event. -/
def level : Event → Level
  | .decoded _ => .trace
  | .failed _ => .debug
  | .fileRead _ _ => .info
  | .skipping _ => .warn

/-- The part of the program an event comes from, as it is shown. -/
def source : Event → String
  | .decoded _ => "xv_x64::x86_64::decoder"
  | .failed _ => "xv_x64::x86_64::decoder"
  | .fileRead _ _ => "xv"
  | .skipping _ => "xv"

/-- The wording of an event. -/
def text : Event → String
  | .decoded instruction =>
      Hex.marked instruction.address.toNat ++ ": " ++ instruction.opcode.text ++ " ("
        ++ toString instruction.length ++ " bytes)"
  | .failed failure => "decode failed: " ++ failure.message
  | .fileRead size path => "read " ++ toString size ++ " bytes from " ++ path
  | .skipping failure => failure.message ++ "; skipping one byte"

/-- The events that are shown when `level` is the least important one shown. -/
def upTo (level : Level) (events : List Event) : List Event :=
  events.filter fun event => event.level.rank ≤ level.rank

end Event

end LongMode
