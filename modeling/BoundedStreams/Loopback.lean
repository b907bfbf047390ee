import BoundedStreams.Startup

/-!
One peer that talks to the echo service over a network in memory.
-/

namespace BoundedStreams

structure Loopback where
  site : Site Unit
  echo : Echo
  /-- The connection of the peer, if the port took it. -/
  peer : Option SocketId
  /-- The time from one turn to the next. -/
  pause : Nat

namespace Loopback

/-- Starts the service and connects the peer. -/
def ofConfig (c : Config) : Except StartError Loopback :=
  (start c .initial).map fun (s, echo) =>
    let (peer, network) := s.network.connect s.manager.port
    ⟨{ s with network := network }, echo, peer, Duration.ofMillis c.io.tickIntervalMs.toNat⟩

def turn (l : Loopback) : Loopback :=
  let (s, echo) := Site.turn (Echo.consumer ()) (l.site, l.echo)
  { l with site := { s with network := s.network.advance l.pause }, echo := echo }

/-- What reached the peer, in turns that go on until it is `wanted` bytes. -/
def collect (peer : SocketId) : (turns wanted : Nat) → Loopback → Bytes × Loopback
  | 0, _, l => ([], l)
  | turns + 1, wanted, l =>
    let l := l.turn
    let (bytes, network) := l.site.network.peerTake peer
    let l := { l with site := { l.site with network := network } }
    if wanted ≤ bytes.length then (bytes, l)
    else
      let (more, l) := collect peer turns (wanted - bytes.length) l
      (bytes ++ more, l)

/-- Sends bytes and waits for them to come back. Each turn moves a byte at least, after the few in
which the stream is claimed and armed. -/
def exchange (l : Loopback) (bytes : Bytes) : Bytes × Loopback :=
  match l.peer with
  | none => ([], l)
  | some peer =>
    let l := { l with site := { l.site with network := l.site.network.peerSend peer bytes } }
    collect peer (2 * bytes.length + 8) bytes.length l

end Loopback

end BoundedStreams
