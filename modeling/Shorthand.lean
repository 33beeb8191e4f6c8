import Shorthand.CommandLine.Directory
import Shorthand.Main
import Shorthand.Proofs.Abbreviation.Lookahead
import Shorthand.Proofs.Abbreviation.Nesting
import Shorthand.Proofs.Abbreviation.Numbered
import Shorthand.Proofs.Abbreviation.Printing
import Shorthand.Proofs.Abbreviation.Verbatim
import Shorthand.Proofs.Document.InPlace
import Shorthand.Proofs.Document.TakenBack
import Shorthand.Proofs.Document.Undo
import Shorthand.Proofs.Host.Apart
import Shorthand.Proofs.Host.Checked
import Shorthand.Proofs.Host.Forced
import Shorthand.Proofs.Host.InStep
import Shorthand.Proofs.Host.Limit
import Shorthand.Proofs.Host.OneLine
import Shorthand.Proofs.Host.Widgets
import Shorthand.Proofs.Script.Mistakes
import Shorthand.Proofs.Session.Completion
import Shorthand.Proofs.Session.Misled
import Shorthand.Proofs.Session.Once
import Shorthand.Proofs.Session.Rewind
import Shorthand.Proofs.Session.Surroundings
import Shorthand.Proofs.Session.Typed
import Shorthand.Proofs.Session.Undone
import Shorthand.Proofs.Tracking.StopRule
import Shorthand.Proofs.Patch.Order
import Shorthand.Proofs.Patch.Weave
import Shorthand.Proofs.Patch.Positions
import Shorthand.Proofs.Patch.Zones
import Shorthand.Proofs.Host.Requests
