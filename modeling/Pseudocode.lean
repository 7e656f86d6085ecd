import Pseudocode.Check.Options
import Pseudocode.Check.Report
import Pseudocode.Diagnostic
import Pseudocode.Main
import Pseudocode.Number.Binary64
import Pseudocode.Number.Decimal
import Pseudocode.Number.Shortest
import Pseudocode.Program.Context
import Pseudocode.Program.Goal
import Pseudocode.Program.Operator
import Pseudocode.Program.Parser
import Pseudocode.Program.Reading
import Pseudocode.Program.Spine
import Pseudocode.Source.Entry
import Pseudocode.Source.Path
import Pseudocode.Source.Snapshot
import Pseudocode.Text.Alphabetic
import Pseudocode.Text.Classes
import Pseudocode.Text.Lines
import Pseudocode.Text.Numeric
import Pseudocode.Text.Quoted
import Pseudocode.Text.Ranges
import Pseudocode.Text.Unprintable
import Pseudocode.Token.Basic
import Pseudocode.Token.Classify
import Pseudocode.Token.Cursor
import Pseudocode.Token.Fragment
import Pseudocode.Token.Kind
import Pseudocode.Token.Scan
import Pseudocode.Token.Stream
import Pseudocode.Tree.Canonical
import Pseudocode.Tree.Node
import Pseudocode.Tree.Outline
import Pseudocode.Proofs.Reaction.Rules
import Pseudocode.Proofs.Reaction.Exact
import Pseudocode.Proofs.Text.Classes
import Pseudocode.Proofs.Token.Forms
import Pseudocode.Proofs.Token.Longest
import Pseudocode.Proofs.Token.Segmentation
import Pseudocode.Proofs.Token.Rereading
import Pseudocode.Proofs.Text.Lines
import Pseudocode.Proofs.Token.Characters
import Pseudocode.Proofs.Expression.Grammar
import Pseudocode.Proofs.Expression.Meaning
import Pseudocode.Proofs.Expression.Climbing
import Pseudocode.Proofs.Statement.Grammar
import Pseudocode.Proofs.Statement.Meaning
import Pseudocode.Proofs.Statement.Soundness
import Pseudocode.Proofs.Statement.Parts
import Pseudocode.Proofs.Placement.Rules
import Pseudocode.Proofs.Placement.Settled
import Pseudocode.Proofs.Statement.Completeness
import Pseudocode.Proofs.Scanned
import Pseudocode.Proofs.Cursor.Pending
import Pseudocode.Proofs.Cursor.Requests
import Pseudocode.Proofs.Cursor.Reading
import Pseudocode.Proofs.Cursor.History
import Pseudocode.Proofs.Statement.Acceptance
import Pseudocode.Proofs.Diagnosis.Located
import Pseudocode.Proofs.Diagnosis.Lazy
import Pseudocode.Proofs.Tree.WellFormed
import Pseudocode.Proofs.Number.ReadBack
import Pseudocode.Proofs.Number.Numeral
import Pseudocode.Proofs.Token.Spelling
import Pseudocode.Proofs.Canonical.Pieces
import Pseudocode.Proofs.Canonical.Literal
import Pseudocode.Proofs.Canonical.Expression
import Pseudocode.Proofs.Canonical.Statement
import Pseudocode.Proofs.Canonical.Declaration
import Pseudocode.Proofs.Canonical.RoundTrip
import Pseudocode.Proofs.Diagnosis.Closing
import Pseudocode.Proofs.Diagnosis.Viable
import Pseudocode.Proofs.Placement.Sites
import Pseudocode.Proofs.Placement.Placed
import Pseudocode.Proofs.Placement.FirstOffence
import Pseudocode.Proofs.Layout.Moved
import Pseudocode.Proofs.Layout.Underway
import Pseudocode.Proofs.Layout.Alike
import Pseudocode.Proofs.Concatenation.Lines
import Pseudocode.Proofs.Concatenation.FirstError
import Pseudocode.Proofs.Concatenation.Statements
import Pseudocode.Proofs.Tree.Yield
import Pseudocode.Proofs.Canonical.Content
import Pseudocode.Proofs.Canonical.Lines
import Pseudocode.Proofs.Canonical.WholeText
import Pseudocode.Proofs.Token.Faults
import Pseudocode.Proofs.Token.FirstFault
import Pseudocode.Proofs.Token.Kinds
import Pseudocode.Proofs.Layout.Comments
import Pseudocode.Proofs.Layout.Renumbered
import Pseudocode.Proofs.Layout.Padding
import Pseudocode.Proofs.Layout.LineEnds
import Pseudocode.Proofs.Diagnosis.Quotation
import Pseudocode.Proofs.Tree.Values
import Pseudocode.Proofs.Diagnosis.OutOfRange
import Pseudocode.Proofs.Turns.Stage
import Pseudocode.Proofs.Turns.Advance
import Pseudocode.Proofs.Turns.Account
import Pseudocode.Proofs.Check.Agreement
import Pseudocode.Proofs.Text.Quoted
import Pseudocode.Proofs.Tree.Heading
import Pseudocode.Proofs.Tree.Levels
import Pseudocode.Proofs.Tree.Outline
import Pseudocode.Proofs.Blocks.Enclosure
import Pseudocode.Proofs.Blocks.Nested
import Pseudocode.Proofs.Blocks.Innermost
