import DiffReview.Diff.Block
import DiffReview.Diff.FileChange
import DiffReview.Diff.Heading
import DiffReview.Diff.Hunk
import DiffReview.Diff.HunkHeader
import DiffReview.Diff.Mark
import DiffReview.Diff.Parse
import DiffReview.Diff.ParseError
import DiffReview.Diff.Patch
import DiffReview.Diff.Scan
import DiffReview.Json.Basic
import DiffReview.Json.Decimal
import DiffReview.Json.Printer
import DiffReview.Json.Reader
import DiffReview.Main
import DiffReview.Proofs.Diff.Accepted
import DiffReview.Proofs.Diff.BodyText
import DiffReview.Proofs.Diff.Concatenation
import DiffReview.Proofs.Diff.Content
import DiffReview.Proofs.Diff.Failure
import DiffReview.Proofs.Diff.Kept
import DiffReview.Proofs.Diff.LineEnds
import DiffReview.Proofs.Diff.Location
import DiffReview.Proofs.Diff.Numbering
import DiffReview.Proofs.Diff.Order
import DiffReview.Proofs.Diff.Report
import DiffReview.Proofs.Diff.Stability
import DiffReview.Proofs.Diff.Tight
import DiffReview.Proofs.Json.RoundTrip
import DiffReview.Proofs.Json.Tokens
import DiffReview.Proofs.Patch.Bodies
import DiffReview.Proofs.Patch.LineEnds
import DiffReview.Proofs.Patch.Replace
import DiffReview.Proofs.Patch.Shape
import DiffReview.Proofs.Patch.Step
import DiffReview.Proofs.Patch.Sync
import DiffReview.Proofs.Review.Issues
import DiffReview.Proofs.Scan.Blocks
import DiffReview.Proofs.Scan.History
import DiffReview.Proofs.Scan.Invariant
import DiffReview.Proofs.Scan.Opener
import DiffReview.Proofs.Scan.Rescan
import DiffReview.Proofs.Scan.Run
import DiffReview.Proofs.Scan.Step
import DiffReview.Proofs.Scan.Stop
import DiffReview.Proofs.Service.Agreement
import DiffReview.Proofs.Service.CommandLine
import DiffReview.Proofs.Service.LineEnds
import DiffReview.Proofs.Service.Recognised
import DiffReview.Proofs.Text.LineEnds
import DiffReview.Proofs.Text.OneLine
import DiffReview.Proofs.Text.Search
import DiffReview.Proofs.Text.Whole
import DiffReview.Proofs.Traversal
import DiffReview.Proofs.Wire.Alike
import DiffReview.Proofs.Wire.Described
import DiffReview.Proofs.Wire.Fits
import DiffReview.Proofs.Wire.Steady
import DiffReview.Proofs.Wire.Written
import DiffReview.Proofs.Written.Changes
import DiffReview.Proofs.Written.Entry
import DiffReview.Proofs.Written.Heading
import DiffReview.Proofs.Written.Place
import DiffReview.Proofs.Written.Quoted
import DiffReview.Proofs.Written.Read
import DiffReview.Proofs.Written.RoundTrip
import DiffReview.Review.Checklist
import DiffReview.Review.Engine
import DiffReview.Review.Finding
import DiffReview.Review.Message
import DiffReview.Review.Rule
import DiffReview.Review.WordedRule
import DiffReview.Service.CommandLine
import DiffReview.Service.Endpoint
import DiffReview.Service.Refusal
import DiffReview.Service.Route
import DiffReview.Text.Classes
import DiffReview.Text.Numeral
import DiffReview.Text.Line
import DiffReview.Text.Quoted
import DiffReview.Wire.Contract
import DiffReview.Wire.Decode
import DiffReview.Wire.Encode
import DiffReview.Wire.Environment
import DiffReview.Wire.Flaw
import DiffReview.Wire.IntText
import DiffReview.Wire.Scalar
import DiffReview.Wire.SettingsFile
import DiffReview.Proofs.FirstPlaces
import DiffReview.Proofs.Review.Merging
import DiffReview.Proofs.Review.Suggestions
import DiffReview.Proofs.Review.Wording
import DiffReview.Proofs.Service.Analysis
import DiffReview.Proofs.Wire.Recounted
import DiffReview.Proofs.Patch.Headings
import DiffReview.Proofs.Diff.Consistency
import DiffReview.Proofs.Diff.Notices
import DiffReview.Proofs.Diff.Names
import DiffReview.Proofs.Diff.MixedEnds
import DiffReview.Proofs.Review.Limits
import DiffReview.Proofs.Review.BySeverity
import DiffReview.Proofs.Review.BareHandler
import DiffReview.Proofs.Scan.States
import DiffReview.Proofs.Diff.Delimits
