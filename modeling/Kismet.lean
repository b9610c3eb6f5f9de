import Kismet.Asset.Basic
import Kismet.Binary64.Basic
import Kismet.Binary64.Fixed
import Kismet.Binary64.Shortest
import Kismet.Catalog
import Kismet.CommandLine
import Kismet.Datum
import Kismet.Document.Basic
import Kismet.Document.Convert
import Kismet.Document.Display
import Kismet.Document.Parser
import Kismet.Document.Printer
import Kismet.Dump
import Kismet.Encoding
import Kismet.Enumeration
import Kismet.EventLink
import Kismet.Fault
import Kismet.Field.Basic
import Kismet.Field.Label
import Kismet.FileTree
import Kismet.Flags
import Kismet.Instr.Assemble
import Kismet.Instr.Basic
import Kismet.Instr.Decode
import Kismet.Listing.Layout
import Kismet.Listing.Line
import Kismet.Listing.Walk
import Kismet.Log
import Kismet.Main
import Kismet.Opcode.Basic
import Kismet.Opcode.Shape
import Kismet.Options
import Kismet.Path
import Kismet.Proofs.Acceptance
import Kismet.Proofs.Agreement
import Kismet.Proofs.Annotation
import Kismet.Proofs.Bits
import Kismet.Proofs.Catalog
import Kismet.Proofs.Cause
import Kismet.Proofs.ClassDefaults
import Kismet.Proofs.Confinement
import Kismet.Proofs.Coordinates
import Kismet.Proofs.Cutting
import Kismet.Proofs.Decode
import Kismet.Proofs.Dump
import Kismet.Proofs.Encode
import Kismet.Proofs.FileTree
import Kismet.Proofs.Filing
import Kismet.Proofs.FixedText
import Kismet.Proofs.FlagText
import Kismet.Proofs.Foreign
import Kismet.Proofs.Format
import Kismet.Proofs.Hex
import Kismet.Proofs.Index
import Kismet.Proofs.Isolation
import Kismet.Proofs.Layout
import Kismet.Proofs.Link
import Kismet.Proofs.Load
import Kismet.Proofs.Lookup
import Kismet.Proofs.Matching
import Kismet.Proofs.Offset
import Kismet.Proofs.Outline
import Kismet.Proofs.Oversize
import Kismet.Proofs.Overwriting
import Kismet.Proofs.Parsing
import Kismet.Proofs.Places
import Kismet.Proofs.PropertyText
import Kismet.Proofs.Recursion
import Kismet.Proofs.Refusal
import Kismet.Proofs.Relocation
import Kismet.Proofs.Separator
import Kismet.Proofs.Serial
import Kismet.Proofs.Session
import Kismet.Proofs.Skeleton
import Kismet.Proofs.Spelling
import Kismet.Proofs.TypeLabel
import Kismet.Proofs.Typed
import Kismet.Proofs.Unambiguous
import Kismet.Proofs.ValueFormat
import Kismet.Proofs.Walk
import Kismet.Record
import Kismet.Report.Basic
import Kismet.Report.Export
import Kismet.Session
import Kismet.Symbol
import Kismet.Text.Hex
import Kismet.Text.Lowercase
import Kismet.Text.Numeral
import Kismet.Text.Printable
import Kismet.Text.Quoted
import Kismet.Text.Search
import Kismet.Text.Units
import Kismet.Value.Basic
import Kismet.Value.Render
