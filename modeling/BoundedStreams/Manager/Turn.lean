import BoundedStreams.Manager.Listening
import BoundedStreams.Manager.Streams

/-!
One turn of a manager: the events of the network, then the ends of orphans, then at most one offer.
Each of these jobs changes the site and calls the consumer at most once, as its last act.
-/

namespace BoundedStreams

/-- A call to the consumer, with the callback it was registered under. -/
inductive Notice (κ : Type) where
  | offer (callback : κ)
  | event (callback : κ) (stream : Handle) (event : StreamEvent)

/-- How the owner of memory `σ` answers a notice. -/
abbrev Consumer (κ σ : Type) := Notice κ → Site κ × σ → Site κ × σ

namespace Site

variable {κ σ : Type}

/-- Takes the socket from a stream. The record stays as an orphan if any interest is registered. -/
def detach (s : Site κ) (h : Handle) (abortive : Bool) : Site κ :=
  let m := s.manager
  match m.streams.get? h with
  | none => s
  | some r =>
    match r.socket with
    | none => s
    | some c =>
      let m := { m.updateStream h fun r => { r with socket := none } with
        sockets := m.sockets.erase c
        active := m.active - 1
        stagger := m.stagger.closed s.now }
      let s := s.put m
      let s := if abortive then s.abort c else s
      let m := s.manager
      let s :=
        if r.interests.isEmpty then
          (s.put { m with streams := m.streams.remove h }).note (.freed h c)
        else
          let m := { m with totals := { m.totals with orphaned := m.totals.orphaned + 1 } }
          ((s.put (m.scheduleEnd h)).count (·.countOrphaned)).note (.orphaned h c)
      s.recordOccupancy

/-- Makes room by giving up the stream that has been idle for the longest time, if every slot is
taken and it was idle for long enough. -/
def evict (s : Site κ) : Bool × Site κ :=
  let m := s.manager
  if m.active < m.options.capacity then (false, s)
  else
    match Candidate.victim? m.options.minIdle s.now m.candidates with
    | none => (false, s.note (.nobodyIdle m.options.minIdle))
    | some c =>
      let s := s.note (.evicted c.stream (c.idleTime s.now))
      let m := { m with totals := { m.totals with evicted := m.totals.evicted + 1 } }
      (true, ((s.put m).count (·.countEvicted)).detach c.stream true)

/-- The verdict on a new connection, after an eviction if capacity is what it lacks. -/
def judge (s : Site κ) : Except Refusal Unit × Site κ :=
  match s.manager.admission with
  | .error (.noCapacity capacity active pending) =>
    match s.evict with
    | (true, s) => (s.manager.admission, s)
    | (false, s) => (.error (.noCapacity capacity active pending), s)
  | verdict => (verdict, s)

def onAccepted (s : Site κ) (c listener : SocketId) : Site κ :=
  if s.manager.listener.map (·.socket) ≠ some listener then (s.note (.lateConnection c)).abort c
  else
    match s.judge with
    | (.ok (), s) =>
      let m := s.manager
      let s := s.put { m with
        backlog := m.backlog.push c s.now
        totals := { m.totals with accepted := m.totals.accepted + 1 } }
      ((s.count (·.countAccepted)).note (.admitted c s.manager.backlog.length)).recordOccupancy
    | (.error reason, s) =>
      let m := s.manager
      let s := s.put { m with totals := { m.totals with rejected := m.totals.rejected + 1 } }
      (((s.count (·.countRefused reason)).note (.refused c reason)).abort c).recordOccupancy

def onClosed (s : Site κ) (c : SocketId) : Site κ :=
  if s.manager.backlog.holds c then
    let s := s.put { s.manager with backlog := s.manager.backlog.withdraw c }
    (s.note (.pendingClosed c)).recordOccupancy
  else
    match s.manager.sockets.get? c with
    | some h => (s.note (.peerClosed h c)).detach h false
    | none => s

/-- Stamps the record with the turn and calls the consumer. -/
def notify (s : Site κ) (h : Handle) (callback : κ) (e : StreamEvent) : Site κ × Option (Notice κ) :=
  let m := s.manager.updateStream h fun r => { r with notifiedTurn := some s.manager.turns }
  ((s.put m).note (.notified h e), some (.event callback h e))

/-- Compares the buffers of a stream with its interests; notifies at most once a turn. -/
def evaluate (s : Site κ) (h : Handle) : Site κ × Option (Notice κ) :=
  match s.manager.streams.get? h with
  | none => (s, none)
  | some r =>
    match r.socket, r.callback with
    | some c, some callback =>
      if r.notifiedTurn = some s.manager.turns then (s, none)
      else
        match r.readiness.poll (s.network.inboundLen c) (s.network.outboundLen c) with
        | (none, _) => (s, none)
        | (some e, readiness) =>
          (s.put (s.manager.updateStream h fun r => { r with readiness := readiness })).notify h
            callback e
    | _, _ => (s, none)

def handle (s : Site κ) (e : SocketEvent) : Site κ × Option (Notice κ) :=
  match e.kind with
  | .accepted listener => (s.onAccepted e.socket listener, none)
  | .closed => (s.onClosed e.socket, none)
  | .received | .sent | .timer | .poll =>
    match s.manager.sockets.get? e.socket with
    | some h => s.evaluate h
    | none => (s, none)

/-- Tells an orphan's consumer of the end; one that was notified in this turn waits for the next. -/
def deliverEnd (s : Site κ) (h : Handle) : Site κ × Option (Notice κ) :=
  match s.manager.streams.get? h with
  | none => (s, none)
  | some r =>
    match r.socket, r.callback with
    | none, some callback =>
      if r.notifiedTurn = some s.manager.turns then
        (s.put { s.manager with ending := s.manager.ending ++ [h] }, none)
      else
        match r.readiness.pollEnd with
        | (none, _) => (s, none)
        | (some e, readiness) =>
          let s := s.put (s.manager.updateStream h fun r => { r with readiness := readiness })
          (s.note (.ended h e)).notify h callback e
    | _, _ => (s, none)

/-- Offers the oldest connection that was not offered yet, if the spacing allows it. -/
def offerPending (s : Site κ) : Site κ × Option (Notice κ) :=
  let m := s.manager
  match m.listener with
  | none => (s, none)
  | some l =>
    if m.stagger.mayOffer s.now then
      match m.backlog.offer with
      | none => (s, none)
      | some (p, backlog) =>
        let m := { m with backlog := backlog, stagger := m.stagger.offered s.now }
        ((s.put m).note (.offered p.socket backlog.length), some (.offer l.callback))
    else (s, none)

def enter (s : Site κ) : Site κ := s.put { s.manager with depth := s.manager.depth + 1 }

/-- The end of a callback; after the outermost one the deferred aborts are carried out. -/
def leave (s : Site κ) : Site κ :=
  let s := s.put { s.manager with depth := s.manager.depth - 1 }
  if s.manager.depth = 0 then s.flush else s

/-- Does a job and lets the consumer answer its notice. -/
def serve (consumer : Consumer κ σ) (job : Site κ → Site κ × Option (Notice κ))
    (w : Site κ × σ) : Site κ × σ :=
  match job w.1 with
  | (s, none) => (s, w.2)
  | (s, some n) =>
    let (s, memory) := consumer n (s.enter, w.2)
    (s.leave, memory)

/-- Starts a turn: what the network has to report. -/
def begin (s : Site κ) : List SocketEvent × Site κ :=
  let (events, network) := s.network.poll
  (events, { s with network := network, manager := { s.manager with turns := s.manager.turns + 1 } })

/-- Takes the orphans that are due in this turn. -/
def takeEnding (s : Site κ) : List Handle × Site κ :=
  (s.manager.ending, s.put { s.manager with ending := [] })

def turn (consumer : Consumer κ σ) (w : Site κ × σ) : Site κ × σ :=
  let (events, s) := w.1.begin
  let w := events.foldl (fun w e => serve consumer (·.handle e) w) (s, w.2)
  let (due, s) := w.1.takeEnding
  let w := due.foldl (fun w h => serve consumer (·.deliverEnd h) w) (s, w.2)
  let w := serve consumer offerPending w
  (w.1.flush, w.2)

/-- Closes the listener and every stream; the manager is not used afterwards. -/
def release (s : Site κ) : Site κ :=
  let s := s.closeListener
  let handles := s.manager.streams.handles
  let s := handles.foldl close s
  let s := (s.put { s.manager with ending := [] }).flush
  s.note (.released s.manager.port handles.length)

end Site

end BoundedStreams
