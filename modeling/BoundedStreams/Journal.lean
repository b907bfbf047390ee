import BoundedStreams.Duration
import BoundedStreams.ListenerError
import BoundedStreams.Metrics
import BoundedStreams.Stream.Basic
import BoundedStreams.Stream.Handle

/-!
What a run leaves behind besides its state: notes, each with a level, a message and fields, and the
metrics.
-/

namespace BoundedStreams

inductive Level where
  | trace
  | debug
  | info
  | warn
  | error
  deriving DecidableEq

def Level.name : Level → String
  | trace => "TRACE"
  | debug => "DEBUG"
  | info => "INFO"
  | warn => "WARN"
  | error => "ERROR"

inductive Note where
  | created (port : Port) (capacity maxPending : Nat)
  | bindFailed (port : Port) (cause : PortTaken)
  | listenerOpened (port : Port) (capacity maxPending : Nat)
  | listenerClosed (port : Port) (aborted : Nat)
  | released (port : Port) (streams : Nat)
  | lateConnection (socket : SocketId)
  | admitted (socket : SocketId) (pending : Nat)
  | refused (socket : SocketId) (reason : Refusal)
  | pendingClosed (socket : SocketId)
  | offered (socket : SocketId) (pending : Nat)
  | claimed (stream : Handle) (socket : SocketId) (waited active : Nat)
  | nothingToClaimInto (active capacity : Nat)
  | nobodyIdle (minIdle : Nat)
  | evicted (stream : Handle) (idle : Nat)
  | peerClosed (stream : Handle) (socket : SocketId)
  | streamClosed (stream : Handle) (socket : SocketId) (active : Nat)
  | closeIgnored (stream : Handle)
  | outputCloseIgnored (stream : Handle)
  | staleArm (stream : Handle)
  | staleRead (stream : Handle)
  | staleWrite (stream : Handle)
  | orphaned (stream : Handle) (socket : SocketId)
  | freed (stream : Handle) (socket : SocketId)
  | orphanClosed (stream : Handle)
  | orphanAcknowledged (stream : Handle)
  | notified (stream : Handle) (event : StreamEvent)
  | ended (stream : Handle) (event : StreamEvent)
  | echoAttached (port : Port)
  | sessionStarted (stream : Handle)
  | sessionUnarmed (stream : Handle) (error : StreamError)
  | sessionFinished (stream : Handle)
  | sessionEnded (stream : Handle)

namespace Note

def level : Note → Level
  | closeIgnored .. | outputCloseIgnored .. | notified .. | ended .. => .trace
  | bindFailed .. => .error
  | listenerOpened .. | listenerClosed .. | released .. | evicted .. | echoAttached .. => .info
  | refused .. | staleArm .. | staleRead .. | staleWrite .. | sessionUnarmed .. => .warn
  | _ => .debug

def message : Note → String
  | created .. => "Stream manager created"
  | bindFailed .. => "Failed to bind listener"
  | listenerOpened .. => "Listener open"
  | listenerClosed .. => "Listener closed"
  | released .. => "Stream manager released"
  | lateConnection .. => "Connection for a closed listener aborted"
  | admitted .. => "Connection admitted"
  | refused .. => "Connection rejected"
  | pendingClosed .. => "Pending connection closed before claim"
  | offered .. => "Offering pending connection"
  | claimed .. => "Stream claimed"
  | nothingToClaimInto .. => "No free stream slot to claim"
  | nobodyIdle .. => "No stream idle long enough to evict"
  | evicted .. => "Evicting idle stream"
  | peerClosed .. => "Peer closed stream"
  | streamClosed .. => "Stream closed"
  | closeIgnored .. => "Close on stale handle ignored"
  | outputCloseIgnored .. => "Output half-close not supported; ignored"
  | staleArm .. => "update_interests on stale handle"
  | staleRead .. => "read on stale handle"
  | staleWrite .. => "write on stale handle"
  | orphaned .. => "Stream orphaned; EOF pending"
  | freed .. => "Stream freed; no interest registered"
  | orphanClosed .. => "Orphaned stream released"
  | orphanAcknowledged .. => "Orphaned stream acknowledged and freed"
  | notified .. => "Notifying stream"
  | ended .. => "Delivering EOF"
  | echoAttached .. => "Echo service attached"
  | sessionStarted .. => "Echo session started"
  | sessionUnarmed .. => "Failed to arm new session"
  | sessionFinished .. => "Echo peer finished"
  | sessionEnded .. => "Echo session ended"

def portField (p : Port) : String × String := ("port", toString p.toNat)
def countField (name : String) (n : Nat) : String × String := (name, toString n)
def socketField (s : SocketId) : String × String := ("socket", s.text)
def streamField (h : Handle) : String × String := ("stream", h.text)
def eventField (e : StreamEvent) : String × String := ("event", e.name)

def fields : Note → List (String × String)
  | created p capacity maxPending | listenerOpened p capacity maxPending =>
    [portField p, countField "capacity" capacity, countField "max_pending" maxPending]
  | bindFailed p cause => [portField p, ("error", cause.message)]
  | listenerClosed p aborted => [portField p, countField "aborted_pending" aborted]
  | released p streams => [portField p, countField "closed_streams" streams]
  | lateConnection s | pendingClosed s => [socketField s]
  | admitted s pending | offered s pending => [socketField s, countField "pending" pending]
  | refused s reason => [socketField s, ("reason", reason.message)]
  | claimed h s waited active =>
    [streamField h, socketField s, countField "waited_ms" (Duration.millis waited),
      countField "active" active]
  | nothingToClaimInto active capacity =>
    [countField "active" active, countField "capacity" capacity]
  | nobodyIdle minIdle => [countField "min_idle_ms" (Duration.millis minIdle)]
  | evicted h idle => [streamField h, countField "idle_ms" (Duration.millis idle)]
  | peerClosed h s | orphaned h s | freed h s => [streamField h, socketField s]
  | streamClosed h s active => [streamField h, socketField s, countField "active" active]
  | notified h e | ended h e => [streamField h, eventField e]
  | echoAttached p => [portField p]
  | sessionUnarmed h e => [streamField h, ("error", e.message)]
  | closeIgnored h | outputCloseIgnored h | staleArm h | staleRead h | staleWrite h
  | orphanClosed h | orphanAcknowledged h | sessionStarted h | sessionFinished h | sessionEnded h =>
    [streamField h]

end Note

structure Journal where
  notes : Array Note
  metrics : Metrics

namespace Journal

def blank : Journal := ⟨#[], .untouched⟩

def note (j : Journal) (n : Note) : Journal := { j with notes := j.notes.push n }

def count (j : Journal) (f : Metrics → Metrics) : Journal := { j with metrics := f j.metrics }

end Journal

end BoundedStreams
