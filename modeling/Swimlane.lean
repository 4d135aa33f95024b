import Swimlane.Command.Arguments
import Swimlane.Command.Check
import Swimlane.Command.FileTree
import Swimlane.Command.Log
import Swimlane.Command.Run
import Swimlane.Compile
import Swimlane.Diagnostic
import Swimlane.Diagram
import Swimlane.Diagram.Title
import Swimlane.Failure
import Swimlane.Flow
import Swimlane.Flow.Edge
import Swimlane.Flow.Resolve
import Swimlane.Flow.Thread
import Swimlane.Json.Graph
import Swimlane.Json.Value
import Swimlane.Main
import Swimlane.Options
import Swimlane.Outline
import Swimlane.Outline.Draft
import Swimlane.Outline.Event
import Swimlane.Outline.Gateway
import Swimlane.Outline.Identifier
import Swimlane.Outline.Reference
import Swimlane.Outline.Statement
import Swimlane.Process.Branch
import Swimlane.Process.Connection
import Swimlane.Process.Document
import Swimlane.Process.Element
import Swimlane.Process.Graph
import Swimlane.Process.Message
import Swimlane.Proofs.Blank
import Swimlane.Proofs.Branches
import Swimlane.Proofs.Comments
import Swimlane.Proofs.Coverage
import Swimlane.Proofs.Diagram
import Swimlane.Proofs.Diagram.Line
import Swimlane.Proofs.Diagram.Picture
import Swimlane.Proofs.Document
import Swimlane.Proofs.Flow.Boundary
import Swimlane.Proofs.Flow.Break
import Swimlane.Proofs.Flow.Distinct
import Swimlane.Proofs.Flow.Forest
import Swimlane.Proofs.Flow.Lane
import Swimlane.Proofs.Flow.Numbered
import Swimlane.Proofs.Flow.Resolution
import Swimlane.Proofs.Flow.Thread
import Swimlane.Proofs.Identifier
import Swimlane.Proofs.Identifier.Search
import Swimlane.Proofs.Indentation
import Swimlane.Proofs.Integrity
import Swimlane.Proofs.Messages
import Swimlane.Proofs.Outline.Account
import Swimlane.Proofs.Outline.Attachment
import Swimlane.Proofs.Outline.Bracket
import Swimlane.Proofs.Outline.Change
import Swimlane.Proofs.Outline.Closing
import Swimlane.Proofs.Outline.Context
import Swimlane.Proofs.Outline.Declaration
import Swimlane.Proofs.Outline.Grounded
import Swimlane.Proofs.Outline.Growth
import Swimlane.Proofs.Outline.Log
import Swimlane.Proofs.Outline.OneLine
import Swimlane.Proofs.Outline.Operation
import Swimlane.Proofs.Outline.Pairing
import Swimlane.Proofs.Outline.Registry
import Swimlane.Proofs.Outline.Settled
import Swimlane.Proofs.Outline.Stack
import Swimlane.Proofs.Positions
import Swimlane.Proofs.Prefix
import Swimlane.Proofs.References
import Swimlane.Proofs.Renumber
import Swimlane.Proofs.Script.Basic
import Swimlane.Proofs.Script.Branch
import Swimlane.Proofs.Script.Flow
import Swimlane.Proofs.Script.Reading
import Swimlane.Proofs.Script.Thread
import Swimlane.Proofs.Slug
import Swimlane.Proofs.Slug.Words
import Swimlane.Proofs.Source.Alike
import Swimlane.Proofs.Source.Arrow
import Swimlane.Proofs.Source.Layout
import Swimlane.Proofs.Source.Lines
import Swimlane.Proofs.Source.Numbering
import Swimlane.Proofs.Source.Position
import Swimlane.Proofs.Source.Segment
import Swimlane.Proofs.Source.Sigil
import Swimlane.Proofs.Source.TwoPass
import Swimlane.Settings
import Swimlane.Slug
import Swimlane.Source.Arrow
import Swimlane.Source.Indentation
import Swimlane.Source.Line
import Swimlane.Source.Sigil
import Swimlane.Span
import Swimlane.StableSort
import Swimlane.Text.Alphanumeric
import Swimlane.Text.Blank
import Swimlane.Text.Piece
import Swimlane.Yaml.Cursor
import Swimlane.Yaml.Node
import Swimlane.Yaml.Scalar
import Swimlane.Yaml.Tag
import Swimlane.Yaml.Token
import Swimlane.Proofs.Outline.Ownership
import Swimlane.Proofs.Lanes
import Swimlane.Proofs.Outline.Repetition
import Swimlane.Proofs.Duplicates
import Swimlane.Proofs.Yaml.Core
import Swimlane.Proofs.Diagram.Title
import Swimlane.Proofs.Outline.Coherence
import Swimlane.Proofs.Json.Graph
import Swimlane.Proofs.Command.FileTree
import Swimlane.Proofs.Command.Check
import Swimlane.Proofs.Command.Render
