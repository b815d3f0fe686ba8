import ScriptService.Wire.Frame
import ScriptService.Script.Table
import ScriptService.Service
import ScriptService.Timer
import ScriptService.Child
import ScriptService.Log
import ScriptService.Host.Error
import ScriptService.Host.Stimulus
import ScriptService.Bus.Client
import ScriptService.Bus.Stream
import ScriptService.CommandLine.Process
import ScriptService.Script.Notation
import ScriptService.Main
import ScriptService.Proofs.History
import ScriptService.Proofs.Session.Run
import ScriptService.Proofs.Session.Routing
import ScriptService.Proofs.Bus.Calls
import ScriptService.Proofs.Bus.Outcomes
import ScriptService.Proofs.Bus.Ownership
import ScriptService.Proofs.Host.Acts
import ScriptService.Proofs.Session.Answers
import ScriptService.Proofs.Bus.Exchange
import ScriptService.Proofs.Bus.Moves
import ScriptService.Proofs.Host.Correlation
import ScriptService.Proofs.Host.Phases
import ScriptService.Proofs.Script.Related
import ScriptService.Proofs.Timers.Kept
import ScriptService.Proofs.Host.Course
import ScriptService.Proofs.Host.Stages
import ScriptService.Proofs.Host.Timers
import ScriptService.Proofs.Host.Outcome
import ScriptService.Proofs.Bus.Delivery
import ScriptService.Proofs.Script.Conversion
import ScriptService.Proofs.Json.Documents
import ScriptService.Proofs.Wire.RoundTrip
import ScriptService.Proofs.Host.Paths
import ScriptService.Proofs.Host.Children
import ScriptService.Proofs.Text.Lines
import ScriptService.Proofs.Json.Printable
import ScriptService.Proofs.Bus.Stream
import ScriptService.Proofs.Children.Signals
import ScriptService.Proofs.Host.Signals
import ScriptService.Proofs.Session.Facts
import ScriptService.Proofs.Session.Attempts
import ScriptService.Proofs.Host.Clients
import ScriptService.Proofs.Host.Steady
import ScriptService.Proofs.Host.Sessions
import ScriptService.Proofs.Host.Attendance
import ScriptService.Proofs.Session.Ledger
import ScriptService.Proofs.Session.Closing
import ScriptService.Proofs.Host.Closing
import ScriptService.Proofs.Wire.Foreign
import ScriptService.Proofs.Children.Numbers
import ScriptService.Proofs.Host.Numbers
import ScriptService.Proofs.Host.Operations
import ScriptService.Proofs.Host.Lifecycle
import ScriptService.Proofs.Timers.Orderly
import ScriptService.Proofs.Timers.Table
import ScriptService.Proofs.Timers.Refinement
import ScriptService.Proofs.CommandLine.Words
import ScriptService.Proofs.CommandLine.Arguments
import ScriptService.Proofs.Host.Release
import ScriptService.Proofs.Host.Stopping
import ScriptService.Proofs.Script.Reach
import ScriptService.Proofs.Script.Globals
import ScriptService.Proofs.Host.Entries
import ScriptService.Proofs.Host.Held
import ScriptService.Proofs.Number.Range
import ScriptService.Proofs.Json.Accepted
import ScriptService.Proofs.Wire.Canonical
import ScriptService.Proofs.Script.Formed
import ScriptService.Proofs.Script.Carried
import ScriptService.Proofs.Service.Exported
import ScriptService.Proofs.Service.Dispatch
import ScriptService.Proofs.Host.Indistinct
import ScriptService.Proofs.Host.Methods
import ScriptService.Proofs.Script.Tables
import ScriptService.Proofs.Script.Pairs
import ScriptService.Proofs.Script.Cells
import ScriptService.Proofs.Host.Transparent
import ScriptService.Proofs.World.Processes
import ScriptService.Proofs.Children.Stopping
import ScriptService.Proofs.Children.StopCalls
import ScriptService.Proofs.Children.Waiting
import ScriptService.Proofs.Script.EntryPoints
import ScriptService.Proofs.Script.Texts
import ScriptService.Proofs.Wire.Sources
import ScriptService.Proofs.Wire.Members
import ScriptService.Proofs.Host.Pending
import ScriptService.Proofs.Script.Lookups
import ScriptService.Proofs.Script.Chains
import ScriptService.Proofs.Host.Exits
import ScriptService.Proofs.Log.Outlets
import ScriptService.Proofs.Log.History
import ScriptService.Proofs.Host.Events
import ScriptService.Proofs.Host.Logging
import ScriptService.Proofs.Host.Records
