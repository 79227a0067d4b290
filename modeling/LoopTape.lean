import LoopTape.Bracket.Matching
import LoopTape.Bracket.Scan
import LoopTape.Machine.Session
import LoopTape.Machine.Structured
import LoopTape.Main
import LoopTape.Record.Evaluation
import LoopTape.Record.Parsing
import LoopTape.Report.Failure
import LoopTape.Text.Numeral
import LoopTape.Tree.Canonical
import LoopTape.Tree.Emission
import LoopTape.Tree.Listing
import LoopTape.Tree.Measure
import LoopTape.Tree.Reading
import LoopTape.Proofs.Bracket.Height
import LoopTape.Proofs.Bracket.Nesting
import LoopTape.Proofs.Bracket.Partners
import LoopTape.Proofs.Bracket.Settling
import LoopTape.Proofs.Bracket.Starts
import LoopTape.Proofs.Machine.Ending
import LoopTape.Proofs.Machine.Jumps
import LoopTape.Proofs.Machine.Pieces
import LoopTape.Proofs.Machine.Resuming
import LoopTape.Proofs.Machine.Stepping
import LoopTape.Proofs.Machine.TreeRuns
import LoopTape.Proofs.Tree.Acceptance
import LoopTape.Proofs.Tree.Placement
import LoopTape.Proofs.Tree.Reading
import LoopTape.Proofs.Tree.RoundTrip
import LoopTape.Proofs.Tree.Shape
import LoopTape.Proofs.Machine.Views
import LoopTape.Proofs.Bracket.Joining
import LoopTape.Proofs.Bracket.Stripping
import LoopTape.Proofs.Machine.Relocating
import LoopTape.Proofs.Machine.Comments
import LoopTape.Proofs.Machine.Sequence
import LoopTape.Proofs.Machine.Budget
import LoopTape.Proofs.Encoding.CodeBytes
import LoopTape.Proofs.Record.Files
import LoopTape.Proofs.Machine.Turning
import LoopTape.Proofs.Session.Reaching
import LoopTape.Proofs.Session.Payment
import LoopTape.Proofs.Session.Ranges
import LoopTape.Proofs.Session.Retrying
import LoopTape.Proofs.Text.Quoting
import LoopTape.Proofs.Tree.Listings
import LoopTape.Proofs.Report.Excerpts
import LoopTape.Proofs.Session.Trails
import LoopTape.Proofs.Report.Brackets
import LoopTape.Proofs.CommandLine.Agreement
import LoopTape.Proofs.Session.Allowances
import LoopTape.Proofs.Bracket.Collections
import LoopTape.Proofs.Tree.Measures
import LoopTape.Proofs.Tree.Levels
import LoopTape.Proofs.Tree.Comments
import LoopTape.Proofs.Tree.Joining
import LoopTape.Proofs.Machine.Straight
import LoopTape.Proofs.Report.Places
import LoopTape.Proofs.Bracket.Gaps
import LoopTape.Proofs.Machine.Abreast
import LoopTape.Proofs.Machine.Undoing
import LoopTape.Proofs.Tree.Nodes
import LoopTape.Proofs.Tree.Worklists
import LoopTape.Proofs.Tree.Frames
import LoopTape.Proofs.Text.Numerals
import LoopTape.Proofs.Text.Decimals
import LoopTape.Proofs.Report.Windows
import LoopTape.Proofs.CommandLine.Dumps
import LoopTape.Proofs.CommandLine.Openings
import LoopTape.Proofs.CommandLine.Limits
