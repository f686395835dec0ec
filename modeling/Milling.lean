import Milling.Archive.Bytes
import Milling.Archive.Decode
import Milling.Archive.Instant
import Milling.Archive.Interchange
import Milling.Archive.Outcome
import Milling.Command.Arguments
import Milling.Command.Run
import Milling.Decimal.Binary
import Milling.Decimal.Numeral
import Milling.Decimal.Shortest
import Milling.Expression.Evaluation
import Milling.Expression.Function
import Milling.Expression.Lexeme
import Milling.Expression.Tree
import Milling.Expression.Value
import Milling.Geometry.Polyline
import Milling.Json.Basic
import Milling.Json.Number
import Milling.Json.Reader
import Milling.Json.Writer
import Milling.Loading.Program
import Milling.Machining.Check
import Milling.Machining.Clearing
import Milling.Machining.Cutter
import Milling.Machining.Error
import Milling.Machining.Generation
import Milling.Machining.Holes
import Milling.Machining.Interchange
import Milling.Machining.Operation
import Milling.Machining.Profile
import Milling.Machining.Raster
import Milling.Machining.Verification
import Milling.Main
import Milling.Offset.Crossing
import Milling.Offset.Inset
import Milling.Offset.Loop
import Milling.Offset.Parallel
import Milling.Offset.Raw
import Milling.Offset.Segment
import Milling.Offset.Slice
import Milling.Posting.Audit
import Milling.Posting.Compaction
import Milling.Posting.Dialect
import Milling.Posting.Emission
import Milling.Posting.Interchange
import Milling.Posting.Poster
import Milling.Posting.SetupSheet
import Milling.Program.Check
import Milling.Program.Modal
import Milling.Program.Command
import Milling.Program.Token
import Milling.Program.Interchange
import Milling.Program.Optimize
import Milling.Program.Reading
import Milling.Program.Variable
import Milling.Proofs.Decimal.Numeral
import Milling.Proofs.Posting.Compaction
import Milling.Proofs.Posting.Number
import Milling.Proofs.Posting.Passage
import Milling.Proofs.Program.Gathering
import Milling.Proofs.Program.Line
import Milling.Proofs.Program.Token
import Milling.Proofs.Scalar.Exact
import Milling.Proofs.Text.Blank
import Milling.Report.Basic
import Milling.Report.Interchange
import Milling.Scalar.Basic
import Milling.Scalar.Double
import Milling.Settings.Basic
import Milling.Settings.Interchange
import Milling.Shop.Interchange
import Milling.Shop.Limits
import Milling.Shop.Tool
import Milling.Shop.ToolLibrary
import Milling.Shop.Units
import Milling.Text.Blank
import Milling.Text.LetterCase
import Milling.Text.Escaped
import Milling.Text.Path
import Milling.Text.Utf8
import Milling.Toml.Number
import Milling.Toml.Quoted
import Milling.Toml.Reader
import Milling.Toml.Table
import Milling.Toml.Writer
import Milling.Toolpath.Basic
import Milling.Toolpath.Point
import Milling.Toolpath.CycleTime
import Milling.Toolpath.Interchange
import Milling.Workplace.Basic
import Milling.Workplace.Desk
import Milling.Proofs.Posting.Move
import Milling.Proofs.Posting.Setting
import Milling.Proofs.Posting.Point
import Milling.Proofs.Posting.Path
import Milling.Proofs.Posting.Frame
import Milling.Proofs.Posting.RoundTrip
import Milling.Proofs.Scalar.Real
import Milling.Proofs.Archive.Layout
import Milling.Proofs.Archive.Content
import Milling.Proofs.Archive.Decoding
import Milling.Proofs.Program.Effect
import Milling.Proofs.Program.Segments
import Milling.Proofs.Loading.Combined
import Milling.Proofs.Machining.Levels
import Milling.Proofs.Machining.Check
import Milling.Proofs.Machining.Trail
import Milling.Proofs.Machining.Cutter
import Milling.Proofs.Machining.Clearing
import Milling.Proofs.Machining.Generation
import Milling.Proofs.Machining.Descent
import Milling.Proofs.Machining.Hole
import Milling.Proofs.Machining.Legs
import Milling.Proofs.Machining.Stepover
import Milling.Proofs.Machining.Tour
import Milling.Proofs.Machining.Pecking
import Milling.Proofs.Scalar.Text
import Milling.Proofs.Scalar.Rounding
import Milling.Proofs.Program.Remark
import Milling.Proofs.Program.Legible
import Milling.Proofs.Program.Command
import Milling.Proofs.Program.Rendering
import Milling.Proofs.Program.Performance
import Milling.Proofs.Program.Repeats
import Milling.Proofs.Program.Optimization
import Milling.Proofs.Program.Restatement
import Milling.Proofs.Posting.Words
import Milling.Proofs.Posting.Draft
import Milling.Proofs.Posting.Remark
import Milling.Proofs.Posting.Legible
import Milling.Proofs.Posting.Sound
import Milling.Proofs.Posting.Numeric
import Milling.Proofs.Geometry.Wall
import Milling.Proofs.Offset.Arc
import Milling.Proofs.Offset.Chord
import Milling.Proofs.Offset.Flattening
import Milling.Proofs.Offset.Inset
import Milling.Proofs.Offset.Rectangle
import Milling.Proofs.Machining.Raster
import Milling.Proofs.Machining.Spacing
import Milling.Proofs.Machining.Reach
import Milling.Proofs.Machining.Wall
import Milling.Proofs.Machining.Sweep
import Milling.Proofs.Posting.Codes
import Milling.Proofs.Posting.Audit
import Milling.Proofs.Posting.Envelope
import Milling.Proofs.Posting.Units
import Milling.Proofs.Posting.Travel
import Milling.Proofs.Scalar.Order
import Milling.Proofs.Program.Comment
import Milling.Proofs.Workplace.Desk
import Milling.Proofs.Loading.Repost
import Milling.Proofs.Archive.Outcome
import Milling.Proofs.Archive.Field
import Milling.Proofs.Archive.Truncation
import Milling.Proofs.Program.Snapshot
import Milling.Proofs.Program.ToolReport
import Milling.Proofs.Decimal.Difference
import Milling.Proofs.Posting.Clearance
import Milling.Proofs.Posting.Cycles
import Milling.Proofs.Program.Findings
import Milling.Proofs.Program.Increments
import Milling.Proofs.Program.Origin
import Milling.Proofs.Program.Numbering
import Milling.Proofs.Program.Redundancy
import Milling.Proofs.Posting.Recompaction
import Milling.Proofs.Posting.Memory
import Milling.Proofs.Posting.Faithful
import Milling.Proofs.Program.Reduced
import Milling.Proofs.Geometry.Steps
import Milling.Proofs.Offset.Reversal
import Milling.Proofs.Offset.Corner
import Milling.Proofs.Machining.Scanline
import Milling.Proofs.Machining.Direction
import Milling.Proofs.Machining.Arcs
import Milling.Proofs.Machining.Turning
import Milling.Proofs.Program.Reference
import Milling.Proofs.Program.Bracket
import Milling.Proofs.Program.Assignment
import Milling.Proofs.Program.Stretch
import Milling.Proofs.Toolpath.Runs
import Milling.Proofs.Scalar.Comparison
import Milling.Proofs.Toolpath.Bounds
import Milling.Proofs.Toolpath.Waiting
import Milling.Proofs.Entries
import Milling.Proofs.Posting.Registration
import Milling.Proofs.Json.Record
import Milling.Proofs.Shop.Library
import Milling.Proofs.Toolpath.Interchange
import Milling.Proofs.Machining.Interchange
import Milling.Proofs.Scalar.Measure
import Milling.Proofs.Scalar.Nearest
import Milling.Proofs.Scalar.Decimal
import Milling.Proofs.Posting.Spelling
import Milling.Proofs.Archive.Reading
import Milling.Proofs.Archive.Consumption
import Milling.Proofs.Archive.Shortage
import Milling.Proofs.Program.Widening
import Milling.Proofs.Program.Stripping
