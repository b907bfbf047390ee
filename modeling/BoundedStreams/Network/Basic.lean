import BoundedStreams.Duration
import BoundedStreams.Socket
import BoundedStreams.Table

/-!
A network in memory with a clock of its own. Peers connect to listening ports, exchange bytes and
close; the owner of a port polls for what happened. Time moves only by `advance`.
-/

namespace BoundedStreams

structure Connection where
  inbound : Bytes
  outbound : Bytes
  /-- Bytes that reached the peer, which has not taken them yet. -/
  delivered : Bytes
  stalled : Bool
  timer : Option Nat

inductive EventKind where
  | accepted (listener : SocketId)
  | received
  | sent
  | timer
  | poll
  | closed
  deriving DecidableEq

structure SocketEvent where
  socket : SocketId
  kind : EventKind
  deriving DecidableEq

structure Network where
  clock : Nat
  nextId : Nat
  nextPort : Port
  listeners : Table SocketId Port
  /-- Open connections, in the order of their ids. -/
  connections : Table SocketId Connection
  closed : List SocketId
  queue : List SocketEvent
  /-- Set for good once an instant past `Duration.greatest` was asked for; such a run has no
  further answers. -/
  overrun : Bool

structure PortTaken where
  port : Port
  deriving DecidableEq

def PortTaken.message (e : PortTaken) : String :=
  "port " ++ toString e.port.toNat ++ " already bound"

namespace Connection

def opened : Connection := ⟨[], [], [], false, none⟩

/-- Hands the outbound bytes to the peer unless the connection is stalled. -/
def drain (c : Connection) : Bool × Connection :=
  if c.stalled || c.outbound.isEmpty then (false, c)
  else (true, { c with outbound := [], delivered := c.delivered ++ c.outbound })

/-- Clears a timer that is due. -/
def expire (now : Nat) (c : Connection) : Bool × Connection :=
  match c.timer with
  | some due => if due ≤ now then (true, { c with timer := none }) else (false, c)
  | none => (false, c)

/-- One tick: what a poll reports of the connection, and the connection after it. -/
def tick (now : Nat) (c : Connection) : List EventKind × Connection :=
  let (sent, c) := c.drain
  let (fired, c) := c.expire now
  ((if sent then [.sent] else []) ++ (if fired then [.timer] else []) ++ [.poll], c)

end Connection

namespace Network

def firstPort : Port := 40000

def initial : Network where
  clock := 0
  nextId := 1
  nextPort := firstPort
  listeners := .empty
  connections := .empty
  closed := []
  queue := []
  overrun := false

def get? (n : Network) (s : SocketId) : Option Connection := n.connections.get? s

def update (n : Network) (s : SocketId) (f : Connection → Connection) : Network :=
  { n with connections := n.connections.modify s f }

def enqueue (n : Network) (s : SocketId) (k : EventKind) : Network :=
  { n with queue := n.queue ++ [⟨s, k⟩] }

/-! ### The clock and the peers -/

def advance (n : Network) (d : Nat) : Network :=
  match Duration.after? n.clock d with
  | some t => { n with clock := t }
  | none => { n with overrun := true }

def listenerOn? (n : Network) (p : Port) : Option SocketId :=
  (n.listeners.entries.find? (·.2 = p)).map (·.1)

def isListening (n : Network) (p : Port) : Bool := (n.listenerOn? p).isSome

def connect (n : Network) (p : Port) : Option SocketId × Network :=
  match n.listenerOn? p with
  | none => (none, n)
  | some l =>
    let s : SocketId := ⟨n.nextId⟩
    (some s, { n with
      nextId := n.nextId + 1
      connections := n.connections.set s .opened
      queue := n.queue ++ [⟨s, .accepted l⟩] })

def peerSend (n : Network) (s : SocketId) (bs : Bytes) : Network :=
  if n.connections.contains s then
    (n.update s fun c => { c with inbound := c.inbound ++ bs }).enqueue s .received
  else n

/-- Ends a connection, from either side; bytes still in it are lost. -/
def close (n : Network) (s : SocketId) : Network :=
  if n.connections.contains s then
    { n with
      connections := n.connections.erase s
      closed := n.closed ++ [s]
      queue := n.queue ++ [⟨s, .closed⟩] }
  else n

/-- The peer takes what reached it. -/
def peerTake (n : Network) (s : SocketId) : Bytes × Network :=
  match n.get? s with
  | some c => (c.delivered, n.update s fun c => { c with delivered := [] })
  | none => ([], n)

def stall (n : Network) (s : SocketId) (on : Bool) : Network :=
  n.update s fun c => { c with stalled := on }

def timerDue? (n : Network) (s : SocketId) : Option Nat := (n.get? s).bind (·.timer)

def isOpen (n : Network) (s : SocketId) : Bool := n.connections.contains s

def wasClosed (n : Network) (s : SocketId) : Bool := n.closed.contains s

def openCount (n : Network) : Nat := n.connections.size

/-! ### The owner of a port -/

/-- The port that a request for `p` gets, where 0 asks for the next of the network's own. The count goes
on at 0 after 65535, as in a release build; a build with overflow checks, which is the default, stops at
the request that would get 65535. -/
def assignPort (n : Network) (p : Port) : Port × Network :=
  if p = 0 then (n.nextPort, { n with nextPort := n.nextPort + 1 }) else (p, n)

/-- Listens on a port; a port of the network's own is used up even if it turns out to be taken. -/
def bind (n : Network) (p : Port) : Except PortTaken (SocketId × Port) × Network :=
  let (p, n) := n.assignPort p
  if n.isListening p then (.error ⟨p⟩, n)
  else
    let s : SocketId := ⟨n.nextId⟩
    (.ok (s, p), { n with nextId := n.nextId + 1, listeners := n.listeners.set s p })

def closeListener (n : Network) (s : SocketId) : Network :=
  { n with listeners := n.listeners.erase s }

/-- The queued events, then one tick of every open connection. -/
def poll (n : Network) : List SocketEvent × Network :=
  (n.queue ++ n.connections.entries.flatMap fun e => (e.2.tick n.clock).1.map (⟨e.1, ·⟩),
    { n with queue := [], connections := n.connections.mapValues fun c => (c.tick n.clock).2 })

def inboundLen (n : Network) (s : SocketId) : Nat := (n.get? s).elim 0 (·.inbound.length)

def outboundLen (n : Network) (s : SocketId) : Nat := (n.get? s).elim 0 (·.outbound.length)

/-- Takes at most `k` of the bytes that came in. -/
def recv (n : Network) (s : SocketId) (k : Nat) : Bytes × Network :=
  match n.get? s with
  | some c => (c.inbound.take k, n.update s fun c => { c with inbound := c.inbound.drop k })
  | none => ([], n)

def send (n : Network) (s : SocketId) (bs : Bytes) : Network :=
  n.update s fun c => { c with outbound := c.outbound ++ bs }

/-- Arms the timer of a connection; of two deadlines the earlier one stays. -/
def schedule (n : Network) (s : SocketId) (d : Nat) : Network :=
  match Duration.after? n.clock d with
  | some t => n.update s fun c => { c with timer := some (c.timer.elim t (min · t)) }
  | none => { n with overrun := true }

end Network

end BoundedStreams
