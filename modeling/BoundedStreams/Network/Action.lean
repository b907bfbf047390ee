import BoundedStreams.Network.Basic

/-!
Everything that can be asked of a network, and its answers, as data.
-/

namespace BoundedStreams.Network

inductive Action where
  | advance (span : Nat)
  | connect (port : Port)
  | peerSend (socket : SocketId) (bytes : Bytes)
  | peerClose (socket : SocketId)
  | peerTake (socket : SocketId)
  | stall (socket : SocketId) (on : Bool)
  | timer (socket : SocketId)
  | socket (socket : SocketId)
  | listening (port : Port)
  | openCount
  | now
  | bind (port : Port)
  | closeListener (socket : SocketId)
  | send (socket : SocketId) (bytes : Bytes)
  | abort (socket : SocketId)
  | schedule (socket : SocketId) (delay : Nat)
  | recv (socket : SocketId) (count : Nat)
  | poll

structure SocketStatus where
  isOpen : Bool
  wasClosed : Bool
  inboundLen : Nat
  outboundLen : Nat

inductive Reply where
  | done
  | time (t : Nat)
  | timer (due : Option Nat)
  | socket (id : Option SocketId)
  | status (s : SocketStatus)
  | flag (b : Bool)
  | count (n : Nat)
  | bytes (bs : Bytes)
  | bound (result : Except PortTaken (SocketId × Port))
  | events (es : List SocketEvent)

def status (n : Network) (s : SocketId) : SocketStatus :=
  ⟨n.isOpen s, n.wasClosed s, n.inboundLen s, n.outboundLen s⟩

def perform (n : Network) : Action → Reply × Network
  | .advance d => let n := n.advance d; (.time n.clock, n)
  | .connect p => let (s, n) := n.connect p; (.socket s, n)
  | .peerSend s bs => (.done, n.peerSend s bs)
  | .peerClose s => (.done, n.close s)
  | .peerTake s => let (bs, n) := n.peerTake s; (.bytes bs, n)
  | .stall s on => (.done, n.stall s on)
  | .timer s => (.timer (n.timerDue? s), n)
  | .socket s => (.status (n.status s), n)
  | .listening p => (.flag (n.isListening p), n)
  | .openCount => (.count n.openCount, n)
  | .now => (.time n.clock, n)
  | .bind p => let (r, n) := n.bind p; (.bound r, n)
  | .closeListener s => (.done, n.closeListener s)
  | .send s bs => (.done, n.send s bs)
  | .abort s => (.done, n.close s)
  | .schedule s d => (.done, n.schedule s d)
  | .recv s k => let (bs, n) := n.recv s k; (.bytes bs, n)
  | .poll => let (es, n) := n.poll; (.events es, n)

/-- The replies before an action that asks for an instant out of range, and whether there is one. -/
def performAll : Network → List Action → List Reply × Bool
  | _, [] => ([], false)
  | n, a :: as =>
    let (r, n) := n.perform a
    if n.overrun then ([], true)
    else
      let (rs, overrun) := n.performAll as
      (r :: rs, overrun)

end BoundedStreams.Network
