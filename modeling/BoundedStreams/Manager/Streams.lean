import BoundedStreams.Manager.Basic

/-!
What a consumer does with a claimed stream: arm it, read, write and close. A stale handle is refused
and reaches no stream.
-/

namespace BoundedStreams.Site

variable {κ : Type}

/-- Frees the record of a stream and closes its socket, if it still has one. -/
def close (s : Site κ) (h : Handle) : Site κ :=
  let m := s.manager
  match m.streams.get? h with
  | none => s.note (.closeIgnored h)
  | some r =>
    let m := { m with streams := m.streams.remove h }
    match r.socket with
    | some c =>
      let s := s.put { m with
        sockets := m.sockets.erase c
        active := m.active - 1
        stagger := m.stagger.closed s.now }
      let s := s.abort c
      (s.note (.streamClosed h c s.manager.active)).recordOccupancy
    | none => ((s.put (m.unscheduleEnd h)).note (.orphanClosed h)).recordOccupancy

/-- The output direction alone is never closed. -/
def closeOutput (s : Site κ) (h : Handle) : Site κ := s.note (.outputCloseIgnored h)

/-- Frees an orphan whose consumer has lost interest. -/
def releaseOrphan (s : Site κ) (h : Handle) : Site κ :=
  if s.manager.streams.contains h then
    (s.put ({ s.manager with streams := s.manager.streams.remove h }.unscheduleEnd h)).note
      (.orphanAcknowledged h)
  else s

/-- Replaces interests and callback. An orphan gets its end announced again, or is freed if nothing
is wanted any more. -/
def arm (s : Site κ) (h : Handle) (want : Interests) (callback : Option κ) :
    Except StreamError Unit × Site κ :=
  match s.manager.streams.get? h with
  | none => (.error .invalidHandle, s.note (.staleArm h))
  | some r =>
    let s := s.put (s.manager.updateStream h (·.arm want callback))
    if r.socket.isSome then (.ok (), s)
    else if want.isEmpty then (.ok (), s.releaseOrphan h)
    else (.ok (), s.put (s.manager.scheduleEnd h))

/-- Takes at most `k` bytes. No bytes mean the end of the stream. Bytes left behind arm the timer of
the connection. -/
def read (s : Site κ) (h : Handle) (k : Nat) : Except StreamError Bytes × Site κ :=
  match s.manager.streams.get? h with
  | none => (.error .invalidHandle, s.note (.staleRead h))
  | some r =>
    match r.socket with
    | none => (.ok [], s)
    | some c =>
      if k = 0 || s.network.inboundLen c = 0 then (.error .busy, s)
      else
        let (bytes, network) := s.network.recv c k
        let network :=
          if 0 < network.inboundLen c then network.schedule c s.manager.options.activePushDelay
          else network
        (.ok bytes, { s with
          network := network
          manager := s.manager.updateStream h fun r => { r with lastActivity := s.now } })

/-- Queues what fits under the outbound limit, and tells how many bytes that is. -/
def write (s : Site κ) (h : Handle) (bytes : Bytes) : Except StreamError Nat × Site κ :=
  match s.manager.streams.get? h with
  | none => (.error .invalidHandle, s.note (.staleWrite h))
  | some r =>
    match r.socket with
    | none => (.error .closed, s)
    | some c =>
      let queued := s.network.outboundLen c
      let limit := s.manager.options.maxOutboundBytes
      if limit ≤ queued then (.error .busy, s)
      else
        let n := min bytes.length (limit - queued)
        (.ok n, { s with network := s.network.send c (bytes.take n) })

end BoundedStreams.Site
