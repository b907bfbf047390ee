import BoundedStreams.Proofs.View

/-! Only a poll looks at what is queued. All else that is done to a network puts its events behind those that
are there, and comes out the same whatever these are. -/

namespace BoundedStreams

namespace Network

/-- The network with `q` queued before all that it has queued itself. -/
def behind (n : Network) (q : List SocketEvent) : Network := { n with queue := q ++ n.queue }

variable (n : Network) (q : List SocketEvent)

lemma inboundLen_behind (c : SocketId) : (n.behind q).inboundLen c = n.inboundLen c := rfl

lemma outboundLen_behind (c : SocketId) : (n.behind q).outboundLen c = n.outboundLen c := rfl

lemma connect_behind (p : Port) :
    (n.behind q).connect p = ((n.connect p).1, (n.connect p).2.behind q) := by
  have hsame : (n.behind q).listenerOn? p = n.listenerOn? p := rfl
  rw [connect, connect, hsame]
  cases n.listenerOn? p with
  | none => rfl
  | some l => simp [behind]

lemma peerSend_behind (c : SocketId) (bytes : Bytes) :
    (n.behind q).peerSend c bytes = (n.peerSend c bytes).behind q := by
  have hsame : (n.behind q).connections.contains c = n.connections.contains c := rfl
  rw [peerSend, peerSend, hsame]
  cases n.connections.contains c with
  | false => rfl
  | true => simp [behind, update, enqueue]

lemma close_behind (c : SocketId) : (n.behind q).close c = (n.close c).behind q := by
  have hsame : (n.behind q).connections.contains c = n.connections.contains c := rfl
  rw [close, close, hsame]
  cases n.connections.contains c with
  | false => rfl
  | true => simp [behind]

lemma closes_behind (cs : List SocketId) :
    cs.foldl close (n.behind q) = (cs.foldl close n).behind q := by
  induction cs generalizing n with
  | nil => rfl
  | cons c cs ih => rw [List.foldl_cons, List.foldl_cons, close_behind, ih]

lemma advance_behind (d : Nat) : (n.behind q).advance d = (n.advance d).behind q := by
  have hsame : (n.behind q).clock = n.clock := rfl
  rw [advance, advance, hsame]
  cases Duration.after? n.clock d with
  | none => rfl
  | some t => rfl

lemma schedule_behind (c : SocketId) (d : Nat) :
    (n.behind q).schedule c d = (n.schedule c d).behind q := by
  have hsame : (n.behind q).clock = n.clock := rfl
  rw [schedule, schedule, hsame]
  cases Duration.after? n.clock d with
  | none => rfl
  | some t => rfl

lemma peerTake_behind (c : SocketId) :
    (n.behind q).peerTake c = ((n.peerTake c).1, (n.peerTake c).2.behind q) := by
  have hsame : (n.behind q).get? c = n.get? c := rfl
  rw [peerTake, peerTake, hsame]
  cases n.get? c with
  | none => rfl
  | some x => rfl

lemma recv_behind (c : SocketId) (k : Nat) :
    (n.behind q).recv c k = ((n.recv c k).1, (n.recv c k).2.behind q) := by
  have hsame : (n.behind q).get? c = n.get? c := rfl
  rw [recv, recv, hsame]
  cases n.get? c with
  | none => rfl
  | some x => rfl

lemma bind_behind (p : Port) : (n.behind q).bind p = ((n.bind p).1, (n.bind p).2.behind q) := by
  have hassign : (n.behind q).assignPort p = ((n.assignPort p).1, (n.assignPort p).2.behind q) := by
    rw [assignPort, assignPort]
    split <;> rfl
  rw [bind, bind, hassign]
  rcases n.assignPort p with ⟨p', n'⟩
  have hsame : (n'.behind q).isListening p' = n'.isListening p' := rfl
  simp only [hsame]
  cases n'.isListening p' with
  | false => rfl
  | true => rfl

lemma perform_behind {a : Action} (ha : a ≠ .poll) :
    (n.behind q).perform a = ((n.perform a).1, (n.perform a).2.behind q) := by
  cases a with
  | poll => exact absurd rfl ha
  | advance d => simp only [perform, advance_behind]; rfl
  | connect p => simp only [perform, connect_behind]
  | peerSend c bytes => simp only [perform, peerSend_behind]
  | peerClose c | abort c => simp only [perform, close_behind]
  | peerTake c => simp only [perform, peerTake_behind]
  | bind p => simp only [perform, bind_behind]
  | schedule c d => simp only [perform, schedule_behind]
  | recv c k => simp only [perform, recv_behind]
  | stall c on | timer c | socket c | listening p | openCount | now | closeListener c
  | send c bytes => rfl

lemma poll_behind : (n.behind q).poll = (q ++ n.poll.1, n.poll.2) := by
  simp [poll, behind]

end Network

namespace Site

variable {κ : Type}

def behind (s : Site κ) (q : List SocketEvent) : Site κ := { s with network := s.network.behind q }

variable (s : Site κ) (q : List SocketEvent)

@[simp] lemma manager_behind : (s.behind q).manager = s.manager := rfl

@[simp] lemma network_behind : (s.behind q).network = s.network.behind q := rfl

@[simp] lemma now_behind : (s.behind q).now = s.now := rfl

@[simp] lemma put_behind (m : Manager κ) : (s.behind q).put m = (s.put m).behind q := rfl

@[simp] lemma note_behind (n : Note) : (s.behind q).note n = (s.note n).behind q := rfl

@[simp] lemma count_behind (f : Metrics → Metrics) :
    (s.behind q).count f = (s.count f).behind q := rfl

@[simp] lemma recordOccupancy_behind :
    (s.behind q).recordOccupancy = s.recordOccupancy.behind q := rfl

@[simp] lemma abort_behind (c : SocketId) : (s.behind q).abort c = (s.abort c).behind q := by
  rw [abort, abort, manager_behind, network_behind, Network.close_behind]
  split <;> rfl

@[simp] lemma aborts_behind (cs : List SocketId) :
    cs.foldl abort (s.behind q) = (cs.foldl abort s).behind q := by
  induction cs generalizing s with
  | nil => rfl
  | cons c cs ih => rw [List.foldl_cons, List.foldl_cons, abort_behind, ih]

@[simp] lemma flush_behind : (s.behind q).flush = s.flush.behind q := by
  rw [flush, flush, behind, behind, Network.closes_behind]

lemma leave_behind : (s.behind q).leave = s.leave.behind q := by
  simp only [leave, put_behind, manager_behind, flush_behind]
  split <;> rfl

/-! ### Calls -/

lemma openListener_behind (callback : κ) : (s.behind q).openListener callback =
    ((s.openListener callback).1, (s.openListener callback).2.behind q) := by
  rw [openListener, openListener]
  dsimp only
  rw [manager_behind, network_behind, Network.bind_behind]
  rcases s.network.bind s.manager.port with ⟨_ | ⟨c, p⟩, n⟩
  · split <;> rfl
  · split <;> rfl

@[simp] lemma closeListener_behind : (s.behind q).closeListener = s.closeListener.behind q := by
  rw [closeListener, closeListener, manager_behind]
  cases s.manager.listener with
  | none => rfl
  | some l =>
    have hshut : ∀ m : Manager κ, { s.behind q with
          network := (s.behind q).network.closeListener l.socket, manager := m } =
        { s with network := s.network.closeListener l.socket, manager := m }.behind q :=
      fun _ => rfl
    simp only [hshut, aborts_behind, note_behind, recordOccupancy_behind, manager_behind]

lemma accept_behind :
    (s.behind q).accept = (s.accept.1, s.accept.2.behind q) := by
  rw [accept, accept]
  dsimp only
  rw [manager_behind]
  split
  · rfl
  · cases s.manager.backlog.claim with
    | none => rfl
    | some x => rfl

@[simp] lemma close_behind (h : Handle) : (s.behind q).close h = (s.close h).behind q := by
  rw [close, close, manager_behind]
  cases s.manager.streams.get? h with
  | none => rfl
  | some r =>
    dsimp only
    cases r.socket with
    | none => rfl
    | some c => simp only [put_behind, abort_behind, note_behind, recordOccupancy_behind,
        now_behind, manager_behind]

@[simp] lemma closes_behind (hs : List Handle) :
    hs.foldl close (s.behind q) = (hs.foldl close s).behind q := by
  induction hs generalizing s with
  | nil => rfl
  | cons h hs ih => rw [List.foldl_cons, List.foldl_cons, close_behind, ih]

lemma releaseOrphan_behind (h : Handle) :
    (s.behind q).releaseOrphan h = (s.releaseOrphan h).behind q := by
  rw [releaseOrphan, releaseOrphan, manager_behind]
  split <;> rfl

lemma arm_behind (h : Handle) (want : Interests) (callback : Option κ) :
    (s.behind q).arm h want callback =
      ((s.arm h want callback).1, (s.arm h want callback).2.behind q) := by
  rw [arm, arm, manager_behind]
  cases s.manager.streams.get? h with
  | none => rfl
  | some r =>
    simp only [put_behind, manager_behind, releaseOrphan_behind]
    split
    · rfl
    · split <;> rfl

lemma read_behind (h : Handle) (k : Nat) :
    (s.behind q).read h k = ((s.read h k).1, (s.read h k).2.behind q) := by
  rw [read, read, manager_behind]
  cases s.manager.streams.get? h with
  | none => rfl
  | some r =>
    dsimp only
    cases r.socket with
    | none => rfl
    | some c =>
      dsimp only
      rw [network_behind, Network.inboundLen_behind, Network.recv_behind]
      dsimp only
      rw [Network.inboundLen_behind, Network.schedule_behind]
      split
      · rfl
      · split <;> rfl

lemma write_behind (h : Handle) (bytes : Bytes) :
    (s.behind q).write h bytes = ((s.write h bytes).1, (s.write h bytes).2.behind q) := by
  rw [write, write, manager_behind]
  cases s.manager.streams.get? h with
  | none => rfl
  | some r =>
    dsimp only
    cases r.socket with
    | none => rfl
    | some c =>
      dsimp only
      rw [network_behind, Network.outboundLen_behind]
      split <;> rfl

lemma call_behind (c : Call Handle κ) :
    c.perform (s.behind q) = ((c.perform s).1, (c.perform s).2.behind q) := by
  cases c with
  | openListener callback => simp only [Call.perform, openListener_behind, manager_behind]
  | closeListener => simp only [Call.perform, closeListener_behind]
  | accept => simp only [Call.perform, accept_behind]
  | close h => simp only [Call.perform, close_behind]
  | arm h want callback => simp only [Call.perform, arm_behind]
  | read h k => simp only [Call.perform, read_behind]
  | write h bytes => simp only [Call.perform, write_behind]
  | port | closeOutput h | state h | stats => rfl

lemma release_behind : (s.behind q).release = s.release.behind q := by
  simp only [release, closeListener_behind, manager_behind, closes_behind, put_behind, flush_behind,
    note_behind]

/-! ### Jobs -/

@[simp] lemma detach_behind (h : Handle) (abortive : Bool) :
    (s.behind q).detach h abortive = (s.detach h abortive).behind q := by
  rw [detach, detach, manager_behind]
  dsimp only
  cases s.manager.streams.get? h with
  | none => rfl
  | some r =>
    dsimp only
    cases r.socket with
    | none => rfl
    | some c =>
      dsimp only
      cases abortive with
      | false =>
        split <;> rfl
      | true =>
        simp only [put_behind, abort_behind, if_true, now_behind, manager_behind]
        split <;> rfl

lemma evict_behind : (s.behind q).evict = (s.evict.1, s.evict.2.behind q) := by
  rw [evict, evict]
  dsimp only
  rw [manager_behind, now_behind]
  split
  · rfl
  · cases Candidate.victim? s.manager.options.minIdle s.now s.manager.candidates with
    | none => rfl
    | some c => simp only [note_behind, put_behind, count_behind, detach_behind]

lemma judge_behind : (s.behind q).judge = (s.judge.1, s.judge.2.behind q) := by
  rw [judge, judge, manager_behind, evict_behind]
  cases s.manager.admission with
  | ok u => rfl
  | error e =>
    cases e with
    | backlogFull pending limit => rfl
    | noCapacity capacity active pending =>
      rcases s.evict with ⟨_ | _, s'⟩
      · rfl
      · rfl

lemma onAccepted_behind (c l : SocketId) :
    (s.behind q).onAccepted c l = (s.onAccepted c l).behind q := by
  rw [onAccepted, onAccepted, judge_behind, manager_behind, note_behind, abort_behind]
  split
  · rfl
  · rcases s.judge with ⟨_ | _, s'⟩
    · simp only [manager_behind, put_behind, count_behind, note_behind, abort_behind,
        recordOccupancy_behind]
    · rfl

lemma onClosed_behind (c : SocketId) : (s.behind q).onClosed c = (s.onClosed c).behind q := by
  rw [onClosed, onClosed, manager_behind]
  split
  · rfl
  · cases s.manager.sockets.get? c with
    | none => rfl
    | some h => simp only [note_behind, detach_behind]

lemma evaluate_behind (h : Handle) :
    (s.behind q).evaluate h = ((s.evaluate h).1.behind q, (s.evaluate h).2) := by
  rw [evaluate, evaluate, manager_behind]
  cases s.manager.streams.get? h with
  | none => rfl
  | some r =>
    dsimp only
    cases r.socket with
    | none => rfl
    | some c =>
      cases r.callback with
      | none => rfl
      | some cb =>
        simp only [network_behind, Network.inboundLen_behind, Network.outboundLen_behind]
        split
        · rfl
        · rcases r.readiness.poll (s.network.inboundLen c) (s.network.outboundLen c) with ⟨_ | e, x⟩
          · rfl
          · rfl

lemma handle_behind (e : SocketEvent) :
    (s.behind q).handle e = ((s.handle e).1.behind q, (s.handle e).2) := by
  rcases e with ⟨c, kind⟩
  rw [handle, handle]
  cases kind with
  | accepted l => simp only [onAccepted_behind]
  | closed => simp only [onClosed_behind]
  | received | sent | timer | poll =>
    dsimp only
    rw [manager_behind]
    cases s.manager.sockets.get? c with
    | none => rfl
    | some h => exact s.evaluate_behind q h

lemma deliverEnd_behind (h : Handle) :
    (s.behind q).deliverEnd h = ((s.deliverEnd h).1.behind q, (s.deliverEnd h).2) := by
  rw [deliverEnd, deliverEnd, manager_behind]
  cases s.manager.streams.get? h with
  | none => rfl
  | some r =>
    dsimp only
    cases r.socket with
    | some c => rfl
    | none =>
      cases r.callback with
      | none => rfl
      | some cb =>
        dsimp only
        split
        · rfl
        · rcases r.readiness.pollEnd with ⟨_ | e, x⟩
          · rfl
          · rfl

lemma offerPending_behind :
    (s.behind q).offerPending = (s.offerPending.1.behind q, s.offerPending.2) := by
  rw [offerPending, offerPending]
  dsimp only
  rw [manager_behind, now_behind]
  cases s.manager.listener with
  | none => rfl
  | some l =>
    dsimp only
    split
    · cases s.manager.backlog.offer with
      | none => rfl
      | some x => rfl
    · rfl

lemma next_behind (a : Agenda) :
    a.next (s.behind q) = ((a.next s).1, (a.next s).2.1.behind q, (a.next s).2.2) := by
  rcases a with (_ | ⟨e, es⟩) | (_ | ⟨h, hs⟩) | _
  · rfl
  · simp only [Agenda.next, handle_behind]
  · simp only [Agenda.next, offerPending_behind]
  · simp only [Agenda.next, deliverEnd_behind]
  · simp only [Agenda.next, flush_behind]

end Site

namespace Moment

variable {κ : Type}

def behind (w : Moment κ) (q : List SocketEvent) : Moment κ :=
  { w with network := w.network.behind q }

variable {w u : Moment κ} {q : List SocketEvent} {i : Nat} {s : Site κ} {mv : Move κ} {o : Outcome κ}

lemma site?_behind (hs : (w.behind q).site? i = some s) :
    ∃ s₀ : Site κ, s = s₀.behind q ∧ ∀ q', (w.behind q').site? i = some (s₀.behind q') := by
  obtain ⟨m, hm, rfl⟩ := Option.map_eq_some_iff.mp hs
  exact ⟨⟨w.network, m, w.journal⟩, rfl, fun q' => Option.map_eq_some_iff.mpr ⟨m, hm, rfl⟩⟩

/-- A step that does not poll is the same whatever was queued before it. -/
lemma Step.behind (h : Step (w.behind q) mv o u) (hpoll : mv ≠ .network .poll) (hbegin : ∀ i, mv ≠ .begin i) :
    ∃ u₀ : Moment κ, u = u₀.behind q ∧ ∀ q', Step (w.behind q') mv o (u₀.behind q') := by
  cases h with
  | network a hact =>
    have hperform : ∀ q', (w.behind q').network.perform a =
        ((w.network.perform a).1, (w.network.perform a).2.behind q') :=
      fun q' => w.network.perform_behind q' fun he => hpoll (congrArg Move.network he)
    refine ⟨{ w with network := (w.network.perform a).2 }, ?_, fun q' => ?_⟩
    · rw [hperform]
      rfl
    · have hstep := Step.network (w := w.behind q') a hact
      rw [hperform] at hstep ⊢
      exact hstep
  | call i c s hact hs =>
    obtain ⟨s₀, rfl, hs₀⟩ := site?_behind hs
    refine ⟨w.put i (c.perform s₀).2, ?_, fun q' => ?_⟩
    · rw [Site.call_behind]
      rfl
    · have hstep := Step.call (w := w.behind q') i c _ hact (hs₀ q')
      rw [Site.call_behind] at hstep ⊢
      exact hstep
  | note n hact => exact ⟨{ w with journal := w.journal.note n }, rfl, fun q' => .note n hact⟩
  | create p hact => exact ⟨w.create p, rfl, fun q' => .create p hact⟩
  | release i s hact hi hs =>
    obtain ⟨s₀, rfl, hs₀⟩ := site?_behind hs
    refine ⟨w.release i s₀, ?_, fun q' => ?_⟩
    · rw [Moment.release, Site.release_behind]
      rfl
    · have hstep := Step.release (w := w.behind q') i _ hact hi (hs₀ q')
      rw [Moment.release, Site.release_behind] at hstep
      exact hstep
  | begin i s hact hi hs => exact absurd rfl (hbegin i)
  | proceed i a fs s hf hs =>
    obtain ⟨s₀, rfl, hs₀⟩ := site?_behind hs
    have hproceed : ∀ q', (w.behind q').proceed i a fs (s₀.behind q') =
        ((w.proceed i a fs s₀).1, (w.proceed i a fs s₀).2.behind q') := by
      intro q'
      rw [proceed_eq, proceed_eq, Site.next_behind]
      cases (a.next s₀).2.2 <;> rfl
    refine ⟨(w.proceed i a fs s₀).2, ?_, fun q' => ?_⟩
    · rw [hproceed]
    · have hstep := Step.proceed (w := w.behind q') i a fs _ hf (hs₀ q')
      rw [hproceed] at hstep ⊢
      exact hstep
  | leave i a n fs s hf hs =>
    obtain ⟨s₀, rfl, hs₀⟩ := site?_behind hs
    refine ⟨w.during i s₀.leave (⟨i, a, none⟩ :: fs), ?_, fun q' => ?_⟩
    · rw [Site.leave_behind]
      rfl
    · have hstep := Step.leave (w := w.behind q') i a n fs _ hf (hs₀ q')
      rw [Site.leave_behind] at hstep
      exact hstep

end Moment

end BoundedStreams
