import PacketSections.Command.Arguments
import PacketSections.Command.Batch
import PacketSections.Command.Files
import PacketSections.Command.Run
import PacketSections.Json.Binary
import PacketSections.Json.Decode
import PacketSections.Json.Document
import PacketSections.Json.Draft
import PacketSections.Json.Fault
import PacketSections.Json.Load
import PacketSections.Json.Mismatch
import PacketSections.Json.Number
import PacketSections.Json.Record
import PacketSections.Json.Scan
import PacketSections.Json.Shortest
import PacketSections.Lowering.Diagnostic
import PacketSections.Lowering.Error
import PacketSections.Lowering.Pass
import PacketSections.Lowering.Sections
import PacketSections.Lowering.Tuples
import PacketSections.Main
import PacketSections.Proofs.Batches
import PacketSections.Proofs.Chains
import PacketSections.Proofs.Completion
import PacketSections.Proofs.Decoding
import PacketSections.Proofs.DraftLikeness
import PacketSections.Proofs.Encoding
import PacketSections.Proofs.ExprReading
import PacketSections.Proofs.Extraction
import PacketSections.Proofs.FirstError
import PacketSections.Proofs.FixedWidths
import PacketSections.Proofs.FlatNames
import PacketSections.Proofs.Following
import PacketSections.Proofs.HeaderStorage
import PacketSections.Proofs.Highlighting
import PacketSections.Proofs.Indentation
import PacketSections.Proofs.IndexedHolders
import PacketSections.Proofs.Likeness
import PacketSections.Proofs.Loading
import PacketSections.Proofs.Machines
import PacketSections.Proofs.Members
import PacketSections.Proofs.Passes
import PacketSections.Proofs.Readable
import PacketSections.Proofs.Reading
import PacketSections.Proofs.Rearranging
import PacketSections.Proofs.Records
import PacketSections.Proofs.RoundTrip
import PacketSections.Proofs.Schema
import PacketSections.Proofs.SectionBody
import PacketSections.Proofs.SectionTable
import PacketSections.Proofs.SelectArms
import PacketSections.Proofs.Selection
import PacketSections.Proofs.Simulation
import PacketSections.Proofs.SpanErasure
import PacketSections.Proofs.TupleNames
import PacketSections.Proofs.TupleTable
import PacketSections.Proofs.TypeHeight
import PacketSections.Proofs.TypeReach
import PacketSections.Proofs.ValueSetTypes
import PacketSections.Proofs.WrittenForms
import PacketSections.Report.Canvas
import PacketSections.Report.Printer
import PacketSections.Report.Snippet
import PacketSections.Report.SourceLines
import PacketSections.Report.Window
import PacketSections.Source.Decode
import PacketSections.Source.Encode
import PacketSections.Source.Expr
import PacketSections.Source.Types
import PacketSections.Source.Unit
import PacketSections.Target.Emit
import PacketSections.Target.Program
import PacketSections.Target.Section
import PacketSections.Target.Tuple
import PacketSections.Text.Escapes
import PacketSections.Text.Lines
import PacketSections.Text.Quoted
import PacketSections.Text.Width
import PacketSections.Typing.Facts
import PacketSections.Typing.Layout
import PacketSections.Typing.Resolved
