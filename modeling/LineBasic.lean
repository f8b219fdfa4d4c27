import LineBasic.Main
import LineBasic.Proofs.CommandLine.Directory
import LineBasic.Proofs.CommandLine.LineBreak
import LineBasic.Proofs.CommandLine.Truncation
import LineBasic.Proofs.Grammar.Lines
import LineBasic.Proofs.Grammar.Source
import LineBasic.Proofs.Listing.Program
import LineBasic.Proofs.Run.Append
import LineBasic.Proofs.Run.Dependence
import LineBasic.Proofs.Run.Session
import LineBasic.Proofs.Run.Trace
import LineBasic.Proofs.Run.Counter
import LineBasic.Proofs.Run.Lockstep
import LineBasic.Proofs.CommandLine.Modes
import LineBasic.Proofs.Grammar.Nesting
import LineBasic.Proofs.Run.Renaming
import LineBasic.Proofs.Token.Cursor
import LineBasic.Proofs.Token.Seam
import LineBasic.Proofs.Token.Spelling
import LineBasic.Proofs.Grammar.Lookahead
import LineBasic.Proofs.Run.LeftNested
import LineBasic.Proofs.Run.Backward
import LineBasic.Proofs.Value.Kind
import LineBasic.Proofs.Number.Order
import LineBasic.Proofs.Text.ByteOrder
import LineBasic.Proofs.Value.Refusal
import LineBasic.Proofs.Value.Comparison
import LineBasic.Proofs.Run.Inert
import LineBasic.Proofs.Listing.Labels
import LineBasic.Proofs.Number.RoundTrip
import LineBasic.Proofs.Run.Bindings
import LineBasic.Proofs.Value.NumberText
