import Kaleidoscope.Main
import Kaleidoscope.CommandLine.Disk
import Kaleidoscope.Proofs.Lowering.Run
import Kaleidoscope.Proofs.Lowering.Trace
import Kaleidoscope.Proofs.Lowering.Protocol
import Kaleidoscope.Proofs.Lowering.Invariant
import Kaleidoscope.Proofs.Lowering.Frame
import Kaleidoscope.Proofs.Statics.Fault
import Kaleidoscope.Proofs.Checker.Statics
import Kaleidoscope.Proofs.Checker.Acceptance
import Kaleidoscope.Proofs.Ir.Statics
import Kaleidoscope.Proofs.Lockstep
import Kaleidoscope.Proofs.Scoping
import Kaleidoscope.Proofs.Parser.Spelling
import Kaleidoscope.Proofs.Statics.Parsed
import Kaleidoscope.Proofs.Lowering.Fresh
import Kaleidoscope.Proofs.Lowering.Unfolding
import Kaleidoscope.Proofs.Ir.Code
import Kaleidoscope.Proofs.Ir.Machine
import Kaleidoscope.Proofs.Ir.Writing
import Kaleidoscope.Proofs.Ir.Regular
import Kaleidoscope.Proofs.Ir.Accept
import Kaleidoscope.Proofs.Ir.Listing
import Kaleidoscope.Proofs.Ir.Printable
import Kaleidoscope.Proofs.Ir.Rollback
import Kaleidoscope.Proofs.Session.Rejection
import Kaleidoscope.Proofs.Session.Module
import Kaleidoscope.Proofs.Session.Growth
import Kaleidoscope.Proofs.Session.Locals
import Kaleidoscope.Proofs.Token.Join
import Kaleidoscope.Proofs.Token.Lossless
import Kaleidoscope.Proofs.Token.Places
import Kaleidoscope.Proofs.Token.Offsets
import Kaleidoscope.Proofs.Parser.Reader
import Kaleidoscope.Proofs.Parser.Derivation
import Kaleidoscope.Proofs.Parser.Expression
import Kaleidoscope.Proofs.Parser.Lookahead
import Kaleidoscope.Proofs.Parser.Segment
import Kaleidoscope.Proofs.Parser.Barrier
import Kaleidoscope.Proofs.Parser.Earliest
import Kaleidoscope.Proofs.Parser.Chain
import Kaleidoscope.Proofs.Parser.Reports
import Kaleidoscope.Proofs.Parser.OnDemand
import Kaleidoscope.Proofs.Session.Barrier
import Kaleidoscope.Proofs.Session.Diagnosis
import Kaleidoscope.Proofs.Binary64.Nearest
import Kaleidoscope.Proofs.Binary64.Shortest
import Kaleidoscope.Proofs.Binary64.Layout
import Kaleidoscope.Proofs.Binary64.Rounding
import Kaleidoscope.Proofs.Binary64.Value
import Kaleidoscope.Proofs.Token.Number
import Kaleidoscope.Proofs.SExpr.Text
import Kaleidoscope.Proofs.SExpr.Unambiguous
