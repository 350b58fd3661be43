import LongMode.Cursor
import LongMode.Opcode

/-!
# Decoding failures

A stage of the decoder fails with a `Fault`.  Towards the caller a fault
becomes a `Failure`: a cause and the logical address of the instruction that
could not be decoded.  A `Status` says how a decode call ended, without the
address, and has a stable numeric code.
-/

namespace LongMode

/-- Why a byte pattern has no length under the four opcode maps. -/
inductive Malformation where
  /-- The opcode has no entry in its map. -/
  | unmappedOpcode (opcode : Opcode)
  /-- The byte leads an encoding family outside the four maps. -/
  | unsupported (byte : UInt8)
  /-- The instruction is longer than allowed. -/
  | tooLong (length limit : Nat)
deriving DecidableEq, Repr

/-- The wording of a malformation. -/
def Malformation.message : Malformation → String
  | .unmappedOpcode opcode => "no encoding is defined for opcode " ++ opcode.text
  | .unsupported byte => "unsupported encoding family introduced by " ++ Hex.markedByte byte
  | .tooLong length limit =>
      "instruction length " ++ toString length ++ " exceeds the " ++ toString limit
        ++ "-byte limit"

/-- What a stage of the decoder fails with. -/
inductive Fault where
  | outOfBounds (bounds : OutOfBounds)
  | malformed (reason : Malformation)
  /-- A legacy prefix stands where only an opcode may follow a REX prefix. -/
  | prefixConflict (byte : UInt8)
deriving DecidableEq, Repr

/-- Why a decode call failed. -/
inductive Cause where
  | endOfInput
  /-- The instruction starts in the region but `needed` bytes of it are not all there. -/
  | truncated (needed available : Nat)
  | malformed (reason : Malformation)
  | prefixConflict (byte : UInt8)
deriving DecidableEq, Repr

/-- A failed decode call: its cause, and the logical address where it started. -/
structure Failure where
  address : UInt64
  cause : Cause
deriving DecidableEq, Repr

/-- How a decode call ended. -/
inductive Status where
  | success
  | endOfInput
  | malformed (reason : Malformation)
  | prefixConflict
  | truncated
deriving DecidableEq, Repr

namespace Status

/-- The stable numeric code of a status. -/
def code : Status → Nat
  | .success => 0
  | .endOfInput => 1
  | .malformed _ => 2
  | .prefixConflict => 3
  | .truncated => 4

/-- The wording of a status. -/
def text : Status → String
  | .success => "success"
  | .endOfInput => "end of input"
  | .malformed reason => "malformed encoding (" ++ reason.message ++ ")"
  | .prefixConflict => "prefix conflict"
  | .truncated => "truncated"

/-- Whether an instruction was decoded. -/
def isSuccess : Status → Bool
  | .success => true
  | _ => false

/-- Whether the region ended before an instruction did. -/
def isEndOfInput : Status → Bool
  | .endOfInput => true
  | _ => false

end Status

/-- The status a cause reports. -/
def Cause.status : Cause → Status
  | .endOfInput => .endOfInput
  | .truncated _ _ => .truncated
  | .malformed reason => .malformed reason
  | .prefixConflict _ => .prefixConflict

namespace Failure

/-- The wording of a failure. -/
def message (failure : Failure) : String :=
  let address := Hex.marked failure.address.toNat
  match failure.cause with
  | .endOfInput => "end of input at " ++ address
  | .truncated needed available =>
      "truncated instruction at " ++ address ++ ": need " ++ toString needed
        ++ " bytes, have " ++ toString available
  | .malformed reason => "malformed encoding at " ++ address ++ ": " ++ reason.message
  | .prefixConflict byte =>
      "prefix " ++ Hex.markedByte byte ++ " follows a REX prefix in instruction at " ++ address

/-- The status a failure reports. -/
def status (failure : Failure) : Status :=
  failure.cause.status

/-- Whether decoding may go on one byte later.  Running out of input ends it. -/
def isResynchronizable (failure : Failure) : Bool :=
  match failure.cause with
  | .malformed _ => true
  | .prefixConflict _ => true
  | .endOfInput => false
  | .truncated _ _ => false

end Failure

/-- The status of a decode result. -/
def Status.of {α : Type} : Except Failure α → Status
  | .ok _ => .success
  | .error failure => failure.status

end LongMode
