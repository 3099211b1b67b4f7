import OpcodeTable.EntryWriter
import OpcodeTable.Main
import OpcodeTable.Proofs.CanFail
import OpcodeTable.Proofs.Conversion.Attribution
import OpcodeTable.Proofs.Conversion.BrokenOff
import OpcodeTable.Proofs.Conversion.Faults
import OpcodeTable.Proofs.Conversion.FullDevice
import OpcodeTable.Proofs.Conversion.OntoFile
import OpcodeTable.Proofs.Conversion.Rules
import OpcodeTable.Proofs.Conversion.Verified
import OpcodeTable.Proofs.FileSystem
import OpcodeTable.Proofs.Json.Written
import OpcodeTable.Proofs.Output
import OpcodeTable.Proofs.RecordsText
import OpcodeTable.Proofs.RecordEntry
import OpcodeTable.Proofs.EntryWriter
import OpcodeTable.Proofs.CommandLine
import OpcodeTable.Proofs.HiddenFile
import OpcodeTable.Proofs.LogFilter
import OpcodeTable.Proofs.Logged
import OpcodeTable.Proofs.LogIndependence
import OpcodeTable.Proofs.Conversion.LogLines
import OpcodeTable.Proofs.TableDocument
import OpcodeTable.Proofs.TableEquality
import OpcodeTable.Proofs.Number.Rounding
import OpcodeTable.Proofs.Number.Shortest
import OpcodeTable.Proofs.Json.PrintedFloat
import OpcodeTable.Proofs.CodeKey
import OpcodeTable.Proofs.Conversion.CodeLookup
import OpcodeTable.Proofs.Conversion.Integers
import OpcodeTable.Proofs.Json.Equality
import OpcodeTable.Proofs.Json.IntegerLiteral
import OpcodeTable.Proofs.Json.OutOfRange
import OpcodeTable.Proofs.Json.Places
import OpcodeTable.Proofs.Number.Nearest
import OpcodeTable.Proofs.Conversion.Floats
import OpcodeTable.Proofs.Json.RereadFloat
import OpcodeTable.Proofs.Number.SeventeenDigits
import OpcodeTable.Proofs.Number.Scaling
import OpcodeTable.Proofs.Json.Sameness
