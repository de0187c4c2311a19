import Recast.Anchor
import Recast.Classify.Group
import Recast.Classify.Rename
import Recast.Classify.TypeChange
import Recast.Command.Arguments
import Recast.Command.Help
import Recast.Command.Run
import Recast.Config.Basic
import Recast.Config.Discovery
import Recast.Config.Toml
import Recast.Correspondence
import Recast.Detect
import Recast.Diff
import Recast.Document.Basic
import Recast.Document.Json
import Recast.Double
import Recast.Edit
import Recast.Fault
import Recast.Files
import Recast.Json.Decode
import Recast.Json.Printer
import Recast.Json.Reader
import Recast.Json.Token
import Recast.Json.Value
import Recast.LogFilter.Basic
import Recast.LogFilter.Directive
import Recast.LogFilter.FieldMatch
import Recast.LogFilter.Level
import Recast.LogFilter.Pattern.Atom
import Recast.LogFilter.Pattern.Basic
import Recast.LogFilter.Pattern.Set
import Recast.Main
import Recast.Proofs.Classify.Group
import Recast.Proofs.Fault
import Recast.Proofs.Text.Cut
import Recast.Proofs.Text.LineIndex
import Recast.Refactoring.Basic
import Recast.Refactoring.Json
import Recast.Refactoring.Set
import Recast.ShapeMatch
import Recast.Signature
import Recast.Sketch.Basic
import Recast.Sketch.Declaration
import Recast.Sketch.TypeText
import Recast.Snapshot
import Recast.Text.Alphabetic
import Recast.Text.Alphanumeric
import Recast.Text.Blank
import Recast.Text.Bytes
import Recast.Text.Cut
import Recast.Text.Digit
import Recast.Text.LineIndex
import Recast.Text.Position
import Recast.Text.Quoted
import Recast.Text.Search
import Recast.Text.Span
import Recast.Text.Unseen
import Recast.Toml.Quotation
import Recast.Toml.Reader
import Recast.Toml.Scalar
import Recast.Toml.Value
import Recast.Tree.Arena
import Recast.Tree.Basic
import Recast.Tree.Kind
import Recast.Tree.Preorder
import Recast.Tree.Term
import Recast.Proofs.Classify.Cases
import Recast.Proofs.Correspondence
import Recast.Proofs.Correspondence.Bijection
import Recast.Proofs.Detect.Total
import Recast.Proofs.Document.Load
import Recast.Proofs.Document.Reload
import Recast.Proofs.Classify.Renumbering
import Recast.Proofs.Detect.RoundTrip
import Recast.Proofs.Text.Position
import Recast.Proofs.Detect.Trace
import Recast.Proofs.Detect.ReturnType
import Recast.Proofs.Detect.DeclaredName
import Recast.Proofs.Document.Layout
import Recast.Proofs.Document.Rebuild
import Recast.Proofs.Document.Validate
import Recast.Proofs.Json.RoundTrip
import Recast.Proofs.Json.Finite
import Recast.Proofs.Document.Text
import Recast.Proofs.Document.Traversal
import Recast.Proofs.Tree.Building
import Recast.Proofs.Detect.Evidence
import Recast.Proofs.Detect.Singly
import Recast.Proofs.Detect.SecondUpdate
import Recast.Proofs.Detect.Unnamed
import Recast.Proofs.Tree.Isomorphic
import Recast.Proofs.ShapeMatch
import Recast.Proofs.ShapeMatch.Place
import Recast.Proofs.ShapeMatch.Script
import Recast.Proofs.Report
import Recast.Proofs.Snapshot
import Recast.Proofs.Detect.Unchanged
import Recast.Proofs.Detect.Isolation
import Recast.Proofs.Detect.Batch
import Recast.Proofs.Command.Detect
import Recast.Proofs.Text.Digit
import Recast.Proofs.Text.Lines
import Recast.Proofs.Text.Search
import Recast.Proofs.Text.Order
import Recast.Proofs.Text.LineCol
import Recast.Proofs.Document.Numbering
import Recast.Proofs.Anchor
import Recast.Proofs.Signature.Declaration
import Recast.Proofs.Signature.Qualified
import Recast.Proofs.Detect.PassesApart
import Recast.Proofs.Json.Place
import Recast.Proofs.Document.Offsets
import Recast.Proofs.Sketch.Pieces
import Recast.Proofs.Sketch.WellFormed
import Recast.Proofs.Sketch.TypeText
import Recast.Proofs.Refactoring.Json
import Recast.Proofs.Toml.Quotation
import Recast.Proofs.Toml.Reader
import Recast.Proofs.Config.Toml
