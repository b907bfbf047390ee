import BoundedStreams.Address
import BoundedStreams.Admission
import BoundedStreams.Arguments
import BoundedStreams.Backlog
import BoundedStreams.Broadcast
import BoundedStreams.Config.Basic
import BoundedStreams.Config.Decode
import BoundedStreams.Config.Load
import BoundedStreams.Config.Validation
import BoundedStreams.Duration
import BoundedStreams.Echo
import BoundedStreams.Eviction
import BoundedStreams.Journal
import BoundedStreams.ListenerError
import BoundedStreams.Loopback
import BoundedStreams.Manager.Basic
import BoundedStreams.Manager.Call
import BoundedStreams.Manager.Listening
import BoundedStreams.Manager.Streams
import BoundedStreams.Manager.Turn
import BoundedStreams.Metrics
import BoundedStreams.Network.Action
import BoundedStreams.Network.Basic
import BoundedStreams.Network.Lemmas
import BoundedStreams.Options
import BoundedStreams.Ports
import BoundedStreams.Proofs.Arena
import BoundedStreams.Proofs.Deed
import BoundedStreams.Proofs.Holdings
import BoundedStreams.Proofs.Ledger
import BoundedStreams.Proofs.Operations
import BoundedStreams.Proofs.Run
import BoundedStreams.Proofs.Traffic
import BoundedStreams.Scenario
import BoundedStreams.Socket
import BoundedStreams.Stagger
import BoundedStreams.Startup
import BoundedStreams.Stream.Arena
import BoundedStreams.Stream.Basic
import BoundedStreams.Stream.Handle
import BoundedStreams.Stream.Readiness
import BoundedStreams.Table
import BoundedStreams.Text.Numeral
import BoundedStreams.Text.Quoted
import BoundedStreams.Text.Reader
import BoundedStreams.Text.Visible
import BoundedStreams.Toml.Document
import BoundedStreams.Toml.Scalar
import BoundedStreams.Toml.Value
import BoundedStreams.Main
import BoundedStreams.Proofs.Capacity
import BoundedStreams.Proofs.Custody
import BoundedStreams.Proofs.Ownership
import BoundedStreams.Proofs.Leaks
import BoundedStreams.Proofs.Lifecycle
import BoundedStreams.Proofs.Simulation
import BoundedStreams.Proofs.Treatment
import BoundedStreams.Proofs.View
import BoundedStreams.Proofs.Notices
import BoundedStreams.Proofs.Endings
import BoundedStreams.Proofs.Levels
import BoundedStreams.Proofs.WakeUp
import BoundedStreams.Proofs.Waiting
import BoundedStreams.Proofs.Daemon
import BoundedStreams.Proofs.Sessions
import BoundedStreams.Proofs.Conversation
import BoundedStreams.Proofs.Trace
import BoundedStreams.Proofs.Deferral
import BoundedStreams.Proofs.Clock
import BoundedStreams.Proofs.Front
import BoundedStreams.Proofs.Service
import BoundedStreams.Proofs.Turnover
import BoundedStreams.Proofs.Staggering
import BoundedStreams.Proofs.Evictions
import BoundedStreams.Proofs.Exchange
import BoundedStreams.Proofs.Pipes
import BoundedStreams.Proofs.Bystander
import BoundedStreams.Proofs.Account
import BoundedStreams.Proofs.Mirror
import BoundedStreams.Proofs.Delivery
import BoundedStreams.Proofs.Reception
import BoundedStreams.Proofs.Protocol
import BoundedStreams.Proofs.Confinement
import BoundedStreams.Proofs.Usage
import BoundedStreams.Proofs.Incarnations
import BoundedStreams.Proofs.Release
import BoundedStreams.Proofs.Futility
import BoundedStreams.Proofs.Keys
import BoundedStreams.Proofs.Gauges
import BoundedStreams.Proofs.Queue
import BoundedStreams.Proofs.Agendas
import BoundedStreams.Proofs.Chunks
import BoundedStreams.Proofs.Promises
import BoundedStreams.Proofs.Batches
import BoundedStreams.Proofs.Timers
import BoundedStreams.Proofs.AnyPort
import BoundedStreams.Proofs.PortCycle
import BoundedStreams.Proofs.Handover
import BoundedStreams.Proofs.Repeats
