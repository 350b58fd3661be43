import LongMode.Decode.Progress

/-!
# Decoding a block

A block is decoded from its first byte to its last.  A byte where no
instruction can start is recorded with its failure and passed over.  The block
ends early only where it runs out of input in the middle of an instruction;
that failure is then the last entry.
-/

namespace LongMode

set_option linter.unusedVariables false in
/-- The decode calls that cover a region from a cursor to its end. -/
def decodeSteps (settings : Settings) (cursor : Cursor) : List Decoded :=
  if cursor.isAtEnd then []
  else
    let step := decode settings cursor
    match h : step.outcome with
    | .ok _ => step :: decodeSteps settings step.cursor
    | .error failure =>
        if failure.isResynchronizable then
          match hskip : step.cursor.advance 1 with
          | .ok next => step :: decodeSteps settings next
          | .error _ => [step]
        else [step]
termination_by cursor.remaining
decreasing_by
  · exact remaining_decode_lt h
  · have skipped := Cursor.remaining_of_advance hskip
    have kept : step.cursor.remaining ≤ cursor.remaining := remaining_decode_le settings cursor
    omega

/-- The results of decoding a whole block that lives at `address`. -/
def decodeAll (settings : Settings) (bytes : List UInt8) (address : UInt64) : List Outcome :=
  (decodeSteps settings (.ofRegion bytes address)).map (·.outcome)

/-- What is reported while a whole block is decoded. -/
def decodeAllEvents (settings : Settings) (bytes : List UInt8) (address : UInt64) : List Event :=
  (decodeSteps settings (.ofRegion bytes address)).flatMap (·.events)

end LongMode
