/-!
# Decoder settings

The settings a decode call depends on.  A length limit is always enforced
within 1 to 15 bytes; the stored number may lie outside that range, because
settings may come from a file as they are.
-/

namespace LongMode

/-- What a legacy prefix that follows a REX prefix means. -/
inductive RexPolicy where
  /-- The legacy prefix is taken for the opcode and reported as a conflict. -/
  | strict
  /-- The REX prefix has no effect and scanning goes on. -/
  | lenient
deriving DecidableEq, Repr

/-- No instruction is longer than this many bytes. -/
def architecturalLimit : Nat := 15

/-- The nearest length limit that is at least one byte and at most the
    architectural limit. -/
def clampLength (length : Nat) : Nat :=
  max 1 (min length architecturalLimit)

/-- The settings of a decoder. -/
structure Settings where
  maxLength : Nat := architecturalLimit
  rexPolicy : RexPolicy := .strict
  /-- Whether an instruction that runs out of bytes is reported as truncated
      rather than as the end of the input. -/
  reportTruncation : Bool := false
deriving DecidableEq, Repr

namespace Settings

/-- The settings with a length limit, brought within its range. -/
def withMaxLength (settings : Settings) (maxLength : Nat) : Settings :=
  { settings with maxLength := clampLength maxLength }

/-- The settings with a REX policy. -/
def withRexPolicy (settings : Settings) (rexPolicy : RexPolicy) : Settings :=
  { settings with rexPolicy }

/-- The settings with truncation reports on or off. -/
def withReportTruncation (settings : Settings) (reportTruncation : Bool) : Settings :=
  { settings with reportTruncation }

/-- The length limit that is enforced. -/
def lengthLimit (settings : Settings) : Nat :=
  clampLength settings.maxLength

/-- The enforced limit leaves room for an opcode. -/
theorem one_le_lengthLimit (settings : Settings) : 1 ≤ settings.lengthLimit :=
  Nat.le_max_left _ _

/-- The enforced limit is at most the architectural one. -/
theorem lengthLimit_le (settings : Settings) :
    settings.lengthLimit ≤ architecturalLimit := by
  simp only [lengthLimit, clampLength, architecturalLimit]
  omega

end Settings

end LongMode
