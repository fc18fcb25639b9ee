import Spotlight.Activation
import Spotlight.Digest
import Spotlight.Display.Progress
import Spotlight.Editor
import Spotlight.Files.Lookup
import Spotlight.Files.Path
import Spotlight.Files.Repository
import Spotlight.History.Store
import Spotlight.Main
import Spotlight.Patch.Unified
import Spotlight.Report.Format
import Spotlight.Session.Command
import Spotlight.Settings.Project
import Spotlight.Proofs.Text.Blank
import Spotlight.Proofs.Text.Literal
import Spotlight.Proofs.Activation.Layout
import Spotlight.Proofs.Scan.Passage
import Spotlight.Proofs.Scan.Block
import Spotlight.Proofs.Scan.Loops
import Spotlight.Proofs.Group.Header
import Spotlight.Proofs.Group.Layout
import Spotlight.Proofs.Activation.Basic
import Spotlight.Proofs.Activation.Preservation
import Spotlight.Proofs.Activation.Comments
import Spotlight.Proofs.Activation.Again
import Spotlight.Proofs.Group.Reading
import Spotlight.Proofs.Group.Parts
import Spotlight.Proofs.Activation.Single
import Spotlight.Proofs.Json.Strings
import Spotlight.Proofs.Text.Decimal
import Spotlight.Proofs.Json.Numbers
import Spotlight.Proofs.Json.RoundTrip
import Spotlight.Proofs.Json.Reading
import Spotlight.Proofs.History.Timeline
import Spotlight.Proofs.Files.Disk
import Spotlight.Proofs.History.Store
import Spotlight.Proofs.Session.Travel
import Spotlight.Proofs.Session.TimeTravel
import Spotlight.Proofs.History.Record
import Spotlight.Proofs.Session.Activate
import Spotlight.Proofs.Session.Consistent
import Spotlight.Proofs.History.Refinement
import Spotlight.Proofs.Session.RollBack
import Spotlight.Proofs.Patch.Applying
import Spotlight.Proofs.Session.DryRun
import Spotlight.Proofs.Region.Pattern
import Spotlight.Proofs.Scan.Arguments
import Spotlight.Proofs.Group.Grammar
import Spotlight.Proofs.Group.Apart
import Spotlight.Proofs.Group.Whole
import Spotlight.Proofs.Group.Listing
import Spotlight.Proofs.Group.Cutting
import Spotlight.Proofs.Group.Nearest
import Spotlight.Proofs.Activation.LineEnds
import Spotlight.Proofs.Report.Fence
import Spotlight.Proofs.Report.Suites
import Spotlight.Proofs.Report.Saved
import Spotlight.Proofs.Terminal.Strip
import Spotlight.Proofs.Report.Escapes
import Spotlight.Proofs.Json.Cut
import Spotlight.Proofs.Files.Frail
import Spotlight.Proofs.History.Interrupted
import Spotlight.Proofs.Editor
