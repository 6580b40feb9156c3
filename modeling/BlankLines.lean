import BlankLines.Command.Run
import BlankLines.Main
import BlankLines.Tree.Encode
import BlankLines.Proofs.Check.Content
import BlankLines.Proofs.Command.Rerun
import BlankLines.Proofs.Json.Literals
import BlankLines.Proofs.Json.Reading
import BlankLines.Proofs.Json.Decoding
import BlankLines.Proofs.Tree.RoundTrip
import BlankLines.Proofs.Json.Accepting
import BlankLines.Proofs.Check.Independence
import BlankLines.Proofs.Check.Nesting
import BlankLines.Proofs.Check.Moving
import BlankLines.Proofs.Text.Lines
import BlankLines.Proofs.Check.Offset
import BlankLines.Proofs.Check.Insertion
import BlankLines.Proofs.Check.Comments
import BlankLines.Proofs.Check.Wrapping
import BlankLines.Proofs.Check.Positions
import BlankLines.Proofs.Json.Grammar
import BlankLines.Proofs.Json.Judging
import BlankLines.Proofs.Tree.Grammar
import BlankLines.Proofs.Check.Ignored
import BlankLines.Proofs.Check.Endings
import BlankLines.Proofs.Files.Failing
import BlankLines.Proofs.Command.Failing
import BlankLines.Proofs.Config.Discovery
import BlankLines.Proofs.Report.Summary
import BlankLines.Proofs.Command.Narrowing
import BlankLines.Proofs.Config.Showing
import BlankLines.Proofs.Command.Settings
import BlankLines.Proofs.Json.Documents
import BlankLines.Proofs.Json.Unique
import BlankLines.Proofs.Report.Json
import BlankLines.Proofs.Report.Text
import BlankLines.Proofs.Scan.Extensions
import BlankLines.Proofs.Report.Sarif
import BlankLines.Proofs.Report.Inks
import BlankLines.Proofs.Scan.Directories
import BlankLines.Proofs.Scan.Merging
import BlankLines.Proofs.Text.Terminators
import BlankLines.Proofs.Check.History
import BlankLines.Proofs.Report.Totals
import BlankLines.Proofs.Scan.Widening
