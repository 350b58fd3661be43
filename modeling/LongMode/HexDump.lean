import LongMode.Text.Hexadecimal

/-!
# Hex dumps

A dump shows sixteen bytes a line, each line behind the address of its first
byte.  Addresses wrap modulo `2 ^ 64`.
-/

namespace LongMode.HexDump

/-- How many bytes a full line shows. -/
def bytesPerLine : Nat := 16

/-- The line of the bytes at an address. -/
def line (address : UInt64) (bytes : List UInt8) : String :=
  Hex.padded 8 address.toNat ++ ":" ++ String.join (bytes.map fun byte => " " ++ Hex.byte byte)

/-- The lines of a byte string that starts at an address. -/
def lines (address : UInt64) : List UInt8 → List String
  | [] => []
  | byte :: rest =>
      line address ((byte :: rest).take bytesPerLine)
        :: lines (address + UInt64.ofNat bytesPerLine) ((byte :: rest).drop bytesPerLine)
termination_by bytes => bytes.length
decreasing_by
  simp only [List.length_drop, List.length_cons, bytesPerLine]
  omega

end LongMode.HexDump
