import LongMode.Text.Hexadecimal
import LongMode.Text.Numeral
import LongMode.LittleEndian
import LongMode.Cursor
import LongMode.Lookahead
import LongMode.Opcode
import LongMode.Failure
import LongMode.Settings
import LongMode.Reader
import LongMode.Prefixes
import LongMode.Prefixes.Scan
import LongMode.OperandByte
import LongMode.Addressing
import LongMode.Immediate
import LongMode.Opcode.Table
import LongMode.Opcode.Resolve
import LongMode.Instruction
import LongMode.Event
import LongMode.Decode
import LongMode.Decode.Progress
import LongMode.Block
import LongMode.Sweep
import LongMode.Probe
import LongMode.Json
import LongMode.Json.Codec
import LongMode.Json.Instruction
import LongMode.Json.Status
import LongMode.Json.Settings
import LongMode.HexDump
import LongMode.CommandLine.Options
import LongMode.CommandLine.Arguments
import LongMode.CommandLine.Run
import LongMode.CommandLine
import LongMode.Main
import LongMode.Proofs.Reads
import LongMode.Proofs.PrefixRun
import LongMode.Proofs.OperandForms
import LongMode.Proofs.Operands
import LongMode.Proofs.OpcodeSpace
import LongMode.Proofs.Language
import LongMode.Proofs.Commit
import LongMode.Proofs.Faults
import LongMode.Proofs.Agreement
import LongMode.Proofs.RexPolicies
import LongMode.Proofs.Measurement
import LongMode.Proofs.RoundTrip
import LongMode.Proofs.Relocation
import LongMode.Proofs.Built
import LongMode.Proofs.Extension
import LongMode.Proofs.Tiling
import LongMode.Proofs.Chunks
import LongMode.Proofs.Rebasing
import LongMode.Proofs.LengthLimit
import LongMode.Proofs.Truncation
import LongMode.Proofs.ReadWindow
import LongMode.Proofs.BlockEnd
import LongMode.Proofs.FileRun
import LongMode.Proofs.SweepState
import LongMode.Proofs.SweepWalk
import LongMode.Proofs.Consistency
import LongMode.Proofs.Slices
import LongMode.Proofs.CheckedDecoder
import LongMode.Proofs.ChecksHold
import LongMode.Proofs.Numerals
import LongMode.Proofs.JsonText
import LongMode.Proofs.JsonForms
import LongMode.Proofs.Reports
import LongMode.Proofs.BlockReports
import LongMode.Proofs.ScannedPrefixes
import LongMode.Proofs.OpcodeFailures
import LongMode.Proofs.FieldValues
import LongMode.Proofs.InputEnd
import LongMode.Proofs.DecodeLog
import LongMode.Proofs.HexNumerals
import LongMode.Proofs.DumpReading
import LongMode.Proofs.LittleEndianReads
