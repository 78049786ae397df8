import OptimalAssignment.Assignment
import OptimalAssignment.Binary.Format
import OptimalAssignment.Binary.Real
import OptimalAssignment.Command.Help
import OptimalAssignment.Command.Outcome
import OptimalAssignment.Command.Request
import OptimalAssignment.Command.Run
import OptimalAssignment.Command.Switch
import OptimalAssignment.Decimal.Digits
import OptimalAssignment.Decimal.Layout
import OptimalAssignment.Decimal.Reader
import OptimalAssignment.Direction
import OptimalAssignment.Entries
import OptimalAssignment.Files.Entry
import OptimalAssignment.Files.Folder
import OptimalAssignment.Files.Path
import OptimalAssignment.Greedy
import OptimalAssignment.Grid
import OptimalAssignment.Hungarian.Chain
import OptimalAssignment.Hungarian.Event
import OptimalAssignment.Hungarian.Run
import OptimalAssignment.Hungarian.Stage
import OptimalAssignment.Hungarian.State
import OptimalAssignment.Json.Layout
import OptimalAssignment.Log
import OptimalAssignment.Matching
import OptimalAssignment.Pairs
import OptimalAssignment.Pairs.Selection
import OptimalAssignment.Proofs.Grid
import OptimalAssignment.Proofs.Hungarian.Augmentation
import OptimalAssignment.Proofs.Hungarian.Paths
import OptimalAssignment.Proofs.Hungarian.Balance
import OptimalAssignment.Proofs.Hungarian.Course
import OptimalAssignment.Proofs.Entries
import OptimalAssignment.Proofs.Hungarian.Search
import OptimalAssignment.Proofs.Hungarian.Start
import OptimalAssignment.Proofs.Hungarian.Walks
import OptimalAssignment.Proofs.Hungarian.Trail
import OptimalAssignment.Proofs.Hungarian.Marks
import OptimalAssignment.Reduction
import OptimalAssignment.Reduction.Stack
import OptimalAssignment.RunSort
import OptimalAssignment.Scores.ArrayFile
import OptimalAssignment.Scores.ArrayFile.Cells
import OptimalAssignment.Scores.ArrayFile.Failure
import OptimalAssignment.Scores.ArrayFile.Header
import OptimalAssignment.Scores.ArrayFile.Item
import OptimalAssignment.Scores.ArrayFile.Item.Sequence
import OptimalAssignment.Scores.ArrayFile.Literal
import OptimalAssignment.Scores.ArrayFile.Literal.Expression
import OptimalAssignment.Scores.ArrayFile.Literal.Number
import OptimalAssignment.Scores.ArrayFile.Literal.Quotation
import OptimalAssignment.Scores.ArrayFile.Literal.Slots
import OptimalAssignment.Scores.ArrayFile.Literal.Token
import OptimalAssignment.Scores.ArrayFile.LongMark
import OptimalAssignment.Scores.ArrayFile.LongMark.Piece
import OptimalAssignment.Scores.CellFormat
import OptimalAssignment.Scores.Columns
import OptimalAssignment.Scores.Conversion
import OptimalAssignment.Scores.File
import OptimalAssignment.Scores.Kind
import OptimalAssignment.Scores.Nesting
import OptimalAssignment.Scores.Raw
import OptimalAssignment.Scores.Validation
import OptimalAssignment.Settings
import OptimalAssignment.Settings.Content
import OptimalAssignment.Settings.Document
import OptimalAssignment.Settings.Reference
import OptimalAssignment.Settings.Reference.Reader
import OptimalAssignment.Settings.Scope
import OptimalAssignment.Solver
import OptimalAssignment.Tensor
import OptimalAssignment.Text.Blank
import OptimalAssignment.Text.Digit
import OptimalAssignment.Text.Likeness
import OptimalAssignment.Text.Printable
import OptimalAssignment.Text.Quoted
import OptimalAssignment.Text.Upper
import OptimalAssignment.Text.Utf8
import OptimalAssignment.Value
import OptimalAssignment.Value.Display
import OptimalAssignment.Value.Order
import OptimalAssignment.Yaml.Moment
import OptimalAssignment.Yaml.Node
import OptimalAssignment.Yaml.Reader
import OptimalAssignment.Yaml.Scalar
import OptimalAssignment.Yaml.Source
import OptimalAssignment.Yaml.Tag
import OptimalAssignment.Yaml.Token
import OptimalAssignment.Yaml.Token.Lexer
import OptimalAssignment.Yaml.Token.Name
import OptimalAssignment.Yaml.Token.Scalar
import OptimalAssignment.Yaml.Tree
import OptimalAssignment.Yaml.Writer
import OptimalAssignment.Main
import OptimalAssignment.Proofs.Hungarian.Flip
import OptimalAssignment.Proofs.Hungarian.Phases
import OptimalAssignment.Proofs.Hungarian.Turns
import OptimalAssignment.Proofs.Hungarian.Termination
import OptimalAssignment.Proofs.Binary.Packing
import OptimalAssignment.Proofs.Binary.Doubles
import OptimalAssignment.Proofs.Hungarian.Doubles
import OptimalAssignment.Proofs.Hungarian.Marked
import OptimalAssignment.Proofs.Solver
import OptimalAssignment.Proofs.Hungarian.Certificate
import OptimalAssignment.Proofs.Hungarian.Optimality
import OptimalAssignment.Proofs.Hungarian.Independence
import OptimalAssignment.Proofs.Hungarian.Polls
import OptimalAssignment.Proofs.Hungarian.Partial
import OptimalAssignment.Proofs.Binary.Whole
import OptimalAssignment.Proofs.Hungarian.Growth
import OptimalAssignment.Proofs.Hungarian.Image
import OptimalAssignment.Proofs.Hungarian.Whole
import OptimalAssignment.Proofs.Hungarian.InStep
import OptimalAssignment.Proofs.Hungarian.Lattice
import OptimalAssignment.Proofs.Greedy
import OptimalAssignment.Proofs.Greedy.Comparison
import OptimalAssignment.Proofs.Hungarian.Offsets
import OptimalAssignment.Proofs.Hungarian.Scaling
import OptimalAssignment.Proofs.Scores.Proper
import OptimalAssignment.Proofs.Scores.Nesting
import OptimalAssignment.Proofs.Settings
import OptimalAssignment.Proofs.Binary.Nearest
import OptimalAssignment.Proofs.Results
import OptimalAssignment.Proofs.Scores.Leaves
import OptimalAssignment.Proofs.Scores.Inputs
import OptimalAssignment.Proofs.Scores.Refusals
import OptimalAssignment.Proofs.Scores.Readings
import OptimalAssignment.Proofs.Normalization
import OptimalAssignment.Proofs.Hungarian.Seeds
import OptimalAssignment.Proofs.RunSort.Runs
import OptimalAssignment.Proofs.RunSort.Merging
import OptimalAssignment.Proofs.RunSort
import OptimalAssignment.Proofs.Binary.Order
import OptimalAssignment.Proofs.Greedy.Uniqueness
import OptimalAssignment.Proofs.Greedy.Tables
import OptimalAssignment.Proofs.Hungarian.Idle
import OptimalAssignment.Proofs.Scores.Acceptance
import OptimalAssignment.Proofs.Sessions
import OptimalAssignment.Proofs.Pairs
import OptimalAssignment.Proofs.Settings.Changes
import OptimalAssignment.Proofs.Json.Unambiguous
import OptimalAssignment.Proofs.Decimal.Layout
import OptimalAssignment.Proofs.Assignment
import OptimalAssignment.Proofs.Settings.Typed
import OptimalAssignment.Proofs.Command
import OptimalAssignment.Proofs.Yaml.Lines
import OptimalAssignment.Proofs.Yaml.Tokens
import OptimalAssignment.Proofs.Yaml.Entries
import OptimalAssignment.Proofs.Yaml.Documents
import OptimalAssignment.Proofs.Yaml.Written
import OptimalAssignment.Proofs.Binary.Quotients
import OptimalAssignment.Proofs.Decimal.Shortest
import OptimalAssignment.Proofs.Decimal.Numerals
import OptimalAssignment.Proofs.Decimal.Reading
import OptimalAssignment.Proofs.Yaml.Numbers
import OptimalAssignment.Proofs.Settings.Saved
