import BoundedStreams.Backlog
import BoundedStreams.Eviction
import BoundedStreams.Journal
import BoundedStreams.Network.Basic
import BoundedStreams.Options
import BoundedStreams.Ports
import BoundedStreams.Stagger
import BoundedStreams.Stream.Arena
import BoundedStreams.Stream.Basic

/-!
A manager owns one port: its listener, the backlog of admitted connections and the claimed streams.
It works at a site, together with the network and the journal, which other managers may share.
-/

namespace BoundedStreams

structure Listener (κ : Type) where
  socket : SocketId
  callback : κ

structure Totals where
  accepted : Nat
  rejected : Nat
  evicted : Nat
  orphaned : Nat

structure Manager (κ : Type) where
  options : Options
  port : Port
  listener : Option (Listener κ)
  backlog : Backlog
  streams : Arena (Stream κ)
  /-- The stream of each claimed socket. -/
  sockets : Table SocketId Handle
  active : Nat
  stagger : Stagger
  /-- Orphans that wait for the notification of their end. -/
  ending : List Handle
  /-- Sockets to abort when the running callback returns. -/
  deferred : List SocketId
  depth : Nat
  turns : Nat
  totals : Totals

structure Site (κ : Type) where
  network : Network
  manager : Manager κ
  journal : Journal

structure Stats where
  capacity : Nat
  pending : Nat
  active : Nat
  totals : Totals
  lastOffer : Option Nat
  lastClose : Option Nat

namespace Manager

variable {κ : Type}

/-- A manager on the port it asks for, or on the next one of the source. -/
def create (o : Options) (ports : PortSource) : Manager κ × PortSource :=
  let (port, ports) :=
    match o.port with
    | some p => (p, ports)
    | none => ports.next
  ({ options := o
     port := port
     listener := none
     backlog := []
     streams := .empty
     sockets := .empty
     active := 0
     stagger := .unused o.minAcceptInterval o.closeQuietPeriod
     ending := []
     deferred := []
     depth := 0
     turns := 0
     totals := ⟨0, 0, 0, 0⟩ }, ports)

def creationNote (m : Manager κ) : Note := .created m.port m.options.capacity m.options.maxPending

def stats (m : Manager κ) : Stats where
  capacity := m.options.capacity
  pending := m.backlog.length
  active := m.active
  totals := m.totals
  lastOffer := m.stagger.lastOffer
  lastClose := m.stagger.lastClose

/-- The state and the interests of a live stream. -/
def streamState? (m : Manager κ) (h : Handle) : Option (StreamState × Interests) :=
  (m.streams.get? h).map fun r => (r.state, r.interests)

def updateStream (m : Manager κ) (h : Handle) (f : Stream κ → Stream κ) : Manager κ :=
  { m with streams := m.streams.update h f }

def scheduleEnd (m : Manager κ) (h : Handle) : Manager κ :=
  if m.ending.contains h then m else { m with ending := m.ending ++ [h] }

def unscheduleEnd (m : Manager κ) (h : Handle) : Manager κ :=
  { m with ending := m.ending.filter (· ≠ h) }

def admission (m : Manager κ) : Except Refusal Unit :=
  BoundedStreams.admission m.options.capacity m.active m.backlog.length m.options.maxPending

/-- The streams that still have a socket. -/
def candidates (m : Manager κ) : List Candidate :=
  m.streams.toList.filterMap fun e => e.2.socket.map fun _ => ⟨e.1, e.2.lastActivity⟩

end Manager

namespace Site

variable {κ : Type}

def now (s : Site κ) : Nat := s.network.clock

def put (s : Site κ) (m : Manager κ) : Site κ := { s with manager := m }

def note (s : Site κ) (n : Note) : Site κ := { s with journal := s.journal.note n }

def count (s : Site κ) (f : Metrics → Metrics) : Site κ := { s with journal := s.journal.count f }

def recordOccupancy (s : Site κ) : Site κ :=
  s.count (·.setOccupancy s.manager.active s.manager.backlog.length)

/-- Closes a connection, or leaves that until the running callback returns. -/
def abort (s : Site κ) (c : SocketId) : Site κ :=
  if s.manager.depth = 0 then { s with network := s.network.close c }
  else s.put { s.manager with deferred := s.manager.deferred ++ [c] }

def flush (s : Site κ) : Site κ :=
  { s with
    network := s.manager.deferred.foldl Network.close s.network
    manager := { s.manager with deferred := [] } }

end Site

end BoundedStreams
