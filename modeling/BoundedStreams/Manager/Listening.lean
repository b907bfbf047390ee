import BoundedStreams.Manager.Basic

/-!
Opening and closing the listener, and claiming what it brought in.
-/

namespace BoundedStreams.Site

variable {κ : Type}

def openListener (s : Site κ) (callback : κ) : Except ListenerError Unit × Site κ :=
  let m := s.manager
  if m.listener.isSome then (.error (.alreadyOpen m.port), s)
  else
    match s.network.bind m.port with
    | (.error cause, network) =>
      (.error (.bind m.port cause), { s with network := network }.note (.bindFailed m.port cause))
    | (.ok (socket, port), network) =>
      let m := { m with port := port, listener := some ⟨socket, callback⟩ }
      (.ok (), { s with network := network, manager := m }.note
        (.listenerOpened port m.options.capacity m.options.maxPending))

/-- Stops listening and aborts what is pending; claimed streams stay. -/
def closeListener (s : Site κ) : Site κ :=
  match s.manager.listener with
  | none => s
  | some l =>
    let pending := s.manager.backlog.sockets
    let s := { s with
      network := s.network.closeListener l.socket
      manager := { s.manager with listener := none, backlog := [] } }
    let s := pending.foldl abort s
    (s.note (.listenerClosed s.manager.port pending.length)).recordOccupancy

/-- Claims the oldest pending connection as a stream, if a slot is free. -/
def accept (s : Site κ) : Option Handle × Site κ :=
  let m := s.manager
  if m.options.capacity ≤ m.active then
    (none, s.note (.nothingToClaimInto m.active m.options.capacity))
  else
    match m.backlog.claim with
    | none => (none, s)
    | some (p, backlog) =>
      let (h, streams) := m.streams.insert (.claimed p.socket s.now)
      let s := s.put { m with
        backlog := backlog
        streams := streams
        sockets := m.sockets.set p.socket h
        active := m.active + 1 }
      (some h, (s.note (.claimed h p.socket (s.now - p.acceptedAt) s.manager.active)).recordOccupancy)

end BoundedStreams.Site
