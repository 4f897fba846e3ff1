import Treewalk.CommandLine.Basic
import Treewalk.Main
import Treewalk.Proofs.Scanning.Cut
import Treewalk.Proofs.Reading.RoundTrip
import Treewalk.Proofs.Reading.Soundness
import Treewalk.Proofs.Run.Markers
import Treewalk.Proofs.Run.Frame
import Treewalk.Proofs.Run.Ensures
import Treewalk.Proofs.Run.Fitting
import Treewalk.Proofs.Run.Plain
import Treewalk.Proofs.Run.Closed
import Treewalk.Proofs.Run.Errors
import Treewalk.Proofs.Types.Basic
import Treewalk.Proofs.Types.Values
import Treewalk.Proofs.Exits.Agreement
import Treewalk.Proofs.Types.Soundness
import Treewalk.Proofs.Session.LineByLine
import Treewalk.Proofs.Reading.Halting
import Treewalk.Proofs.Reading.Complaints
import Treewalk.Proofs.Reading.Places
import Treewalk.Proofs.Scopes.History
import Treewalk.Proofs.Session.Reset
import Treewalk.Proofs.Scanning.Brackets
import Treewalk.Proofs.Session.Continuation
import Treewalk.Proofs.Reading.Sequel
import Treewalk.Proofs.Reading.Resuming
import Treewalk.Proofs.Scanning.Seams
import Treewalk.Proofs.Reading.Joining
import Treewalk.Proofs.Run.Hashes
import Treewalk.Proofs.Values.Sameness
import Treewalk.Proofs.Run.Arithmetic
import Treewalk.Proofs.Session.Accounting
import Treewalk.Proofs.Identity.Origins
import Treewalk.Proofs.Run.Calls
import Treewalk.Proofs.Reading.Tracing
import Treewalk.Proofs.Renaming.Names
import Treewalk.Proofs.HigherOrder.Environment
import Treewalk.Proofs.Scanning.Composition
import Treewalk.Proofs.Run.Nesting
import Treewalk.Proofs.Values.Literals
import Treewalk.Proofs.Renaming.Bystanders
