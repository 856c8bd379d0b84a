import Dialer.Text.CharSet
import Dialer.Text.Digits
import Dialer.Text.Extending
import Dialer.Text.Printable
import Dialer.Text.Quoted
import Dialer.Text.Record
import Dialer.Time.Duration
import Dialer.Time.Instant
import Dialer.Address.Ip
import Dialer.Address.IpReader
import Dialer.Address.SocketAddress
import Dialer.Target
import Dialer.Fault.Kind
import Dialer.Fault.Numbered
import Dialer.Fault
import Dialer.Failure
import Dialer.Settings
import Dialer.Request
import Dialer.Event
import Dialer.Channel
import Dialer.Socket
import Dialer.Readiness
import Dialer.Text.JsonText
import Dialer.Log
import Dialer.Panic
import Dialer.InFlight.History
import Dialer.InFlight.State
import Dialer.InFlight.Operations
import Dialer.InFlight.Step
import Dialer.Completion
import Dialer.Service.Worker
import Dialer.Service.State
import Dialer.Service.Calls
import Dialer.Service.Step
import Dialer.Simulation.Names
import Dialer.Simulation.Clock
import Dialer.Simulation.EventChannel
import Dialer.Simulation.Network
import Dialer.Simulation.Dialling
import Dialer.Simulation.Reports
import Dialer.Simulation.Survey
import Dialer.Simulation.Services
import Dialer.Simulation.Attempts
import Dialer.Proofs.InFlight.Tokens
import Dialer.Proofs.InFlight.Views
import Dialer.Proofs.InFlight.Registration
import Dialer.Proofs.InFlight.Effects
import Dialer.Proofs.InFlight.Frames
import Dialer.Proofs.InFlight.Lawful
import Dialer.Proofs.InFlight.Accounting
import Dialer.Proofs.InFlight.Queue
import Dialer.Proofs.InFlight.Resolution
import Dialer.Proofs.InFlight.Record
import Dialer.Proofs.InFlight.Speech
import Dialer.Proofs.InFlight.Tidings
import Dialer.Proofs.InFlight.Sockets
import Dialer.Proofs.InFlight.Listener
import Dialer.Proofs.InFlight.Events
import Dialer.Proofs.InFlight.Detaching
import Dialer.Proofs.InFlight.Hushed
import Dialer.Proofs.InFlight.Unheard
import Dialer.Proofs.InFlight.Deciding
import Dialer.Proofs.Service.Stages
import Dialer.Proofs.Service.Worker
import Dialer.Proofs.Service.Deeds
import Dialer.Proofs.Service.Return
import Dialer.Proofs.Service.Draining
import Dialer.Proofs.Service.Passes
import Dialer.Proofs.Service.Locks
import Dialer.Proofs.Service.Duties
import Dialer.Proofs.Service.Submissions
import Dialer.Proofs.Service.Ledger
import Dialer.Proofs.Service.Resolution
import Dialer.Proofs.Service.Shutdown
import Dialer.Proofs.Service.Sole
import Dialer.Proofs.Service.Lifecycle
import Dialer.Proofs.Service.Channels
import Dialer.Proofs.Service.Agenda
import Dialer.Proofs.Service.Monitors
import Dialer.Proofs.Service.Intact
import Dialer.Proofs.Service.Attachments
import Dialer.Proofs.Service.Streams
import Dialer.Proofs.Service.Orderly
import Dialer.Proofs.Service.Handover
import Dialer.Proofs.Service.Resubmission
import Dialer.Proofs.Text.Numerals
import Dialer.Proofs.Address.Reading
import Dialer.Proofs.Address.Targets
import Dialer.Proofs.InFlight.Settling
import Dialer.Proofs.InFlight.Reports
import Dialer.Proofs.InFlight.Owed
import Dialer.Proofs.Service.Deadlines
import Dialer.Proofs.Completion
import Dialer.Proofs.Service.Calling
import Dialer.Proofs.Service.Exchange
import Dialer.Proofs.InFlight.Expiry
import Dialer.Proofs.InFlight.Attempting
import Dialer.Proofs.Address.Stopping
import Dialer.Proofs.Address.Spellings
import Dialer.Proofs.InFlight.Tasks
import Dialer.Proofs.Service.Order
import Dialer.Proofs.InFlight.Search
import Dialer.Proofs.InFlight.Sized
import Dialer.Proofs.InFlight.Capacity
import Dialer.Proofs.Service.Spent
