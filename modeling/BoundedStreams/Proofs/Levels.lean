import BoundedStreams.Proofs.View

/-! What waits in a connection while nobody who may touches it: managers close, read and write the
connections of their own streams only. -/

namespace BoundedStreams

namespace Connection

lemma levels_tick (now : Nat) (k : Connection) : (k.tick now).2.inbound = k.inbound ∧
    (k.tick now).2.outbound = (if k.stalled = true then k.outbound else []) ∧
    (k.tick now).2.stalled = k.stalled := by
  obtain ⟨t, ht⟩ := k.tick_snd now
  rw [ht]
  by_cases hst : k.stalled = true
  · rw [if_pos hst, if_pos hst]
    exact ⟨rfl, rfl, rfl⟩
  · rw [if_neg hst, if_neg hst]
    exact ⟨rfl, rfl, rfl⟩

end Connection

namespace Network

/-- The bytes that wait in a connection on either side, and whether it is stalled. -/
def level? (n : Network) (c : SocketId) : Option (Bytes × Bytes × Bool) :=
  (n.get? c).map fun k => (k.inbound, k.outbound, k.stalled)

/-- If all that can be handed over was, the levels of the connection `c` stay. -/
def Steady (c : SocketId) (n n' : Network) : Prop :=
  ∀ inbound outbound stalled, n.level? c = some (inbound, outbound, stalled) →
    stalled = true ∨ outbound = [] → n'.level? c = some (inbound, outbound, stalled)

lemma Steady.of_eq {c : SocketId} {n n' : Network} (h : n'.level? c = n.level? c) : Steady c n n' :=
  fun _ _ _ hl _ => h.trans hl

lemma Steady.refl (c : SocketId) (n : Network) : Steady c n n := .of_eq rfl

lemma Steady.trans {c : SocketId} {n₁ n₂ n₃ : Network} (h : Steady c n₁ n₂) (h' : Steady c n₂ n₃) :
    Steady c n₁ n₃ :=
  fun _ _ _ hl hd => h' _ _ _ (h _ _ _ hl hd) hd

lemma steady_update {c s : SocketId} (n : Network) {f : Connection → Connection}
    (hf : s = c → ∀ k, (f k).inbound = k.inbound ∧ (f k).outbound = k.outbound ∧
      (f k).stalled = k.stalled) : Steady c n (n.update s f) := by
  apply Steady.of_eq
  simp only [level?, get?_update]
  split
  · next hs =>
    rw [Option.map_map]
    congr 1
    funext k
    obtain ⟨hi, ho, hst⟩ := hf hs k
    simp only [Function.comp, hi, ho, hst]
  · rfl

lemma steady_close {c d : SocketId} (n : Network) (hd : d ≠ c) : Steady c n (n.close d) := by
  apply Steady.of_eq
  simp only [level?, get?_close, if_neg hd]

lemma steady_closes {c : SocketId} (ds : List SocketId) (n : Network) (hc : c ∉ ds) :
    Steady c n (ds.foldl close n) := by
  induction ds generalizing n with
  | nil => exact .refl c n
  | cons d ds ih =>
    simp only [List.mem_cons, not_or] at hc
    exact (n.steady_close (Ne.symm hc.1)).trans (ih _ hc.2)

lemma get?_schedule_of_ne (n : Network) {c d : SocketId} (t : Nat) (h : d ≠ c) :
    (n.schedule c t).get? d = n.get? d := by
  rw [schedule]
  split
  · rw [get?_update, if_neg (Ne.symm h)]
  · rfl

lemma get?_schedule_self (n : Network) {c : SocketId} (t : Nat) {k : Connection}
    (hk : n.get? c = some k) : ∃ due, (n.schedule c t).get? c = some { k with timer := due } := by
  rw [schedule]
  split
  · rw [get?_update, if_pos rfl, hk]
    exact ⟨_, rfl⟩
  · exact ⟨k.timer, hk⟩

lemma get?_recv_self (n : Network) {c : SocketId} (k : Nat) {q : Connection} (hq : n.get? c = some q) :
    (n.recv c k).1 = q.inbound.take k ∧
      (n.recv c k).2.get? c = some { q with inbound := q.inbound.drop k } := by
  rw [recv, hq]
  exact ⟨rfl, by rw [get?_update, if_pos rfl, hq, Option.map_some]⟩

lemma steady_schedule (c d : SocketId) (n : Network) (t : Nat) : Steady c n (n.schedule d t) := by
  rw [schedule]
  split
  · exact n.steady_update fun _ k => ⟨rfl, rfl, rfl⟩
  · exact .of_eq rfl

lemma get?_bind (n : Network) (p : Port) (c : SocketId) : (n.bind p).2.get? c = n.get? c := by
  obtain ⟨q, k, ls, -, hn⟩ := n.bind_frame p
  rw [hn]
  rfl

lemma steady_bind (c : SocketId) (n : Network) (p : Port) : Steady c n (n.bind p).2 := by
  apply Steady.of_eq
  rw [level?, level?, get?_bind]

lemma steady_recv {c d : SocketId} (n : Network) (k : Nat) (hd : d ≠ c) :
    Steady c n (n.recv d k).2 := by
  apply Steady.of_eq
  rw [level?, get?_recv_of_ne n k hd]
  rfl

lemma steady_poll (c : SocketId) (n : Network) : Steady c n n.poll.2 := by
  intro inbound outbound stalled hl hd
  obtain ⟨k, hk, he⟩ := Option.map_eq_some_iff.mp hl
  cases he
  obtain ⟨hin, hout, hst⟩ := k.levels_tick n.clock
  have hkept : (if k.stalled = true then k.outbound else []) = k.outbound := by
    rcases hd with hs | ho
    · exact if_pos hs
    · rw [ho, ite_self]
  rw [level?, get?_poll, hk, Option.map_some, Option.map_some, hin, hout, hst, hkept]

/-- Whether an action changes what waits in the connection `c`, or ends it. -/
def Action.sways (c : SocketId) : Action → Bool
  | .peerSend s _ | .peerClose s | .stall s _ | .send s _ | .abort s | .recv s _ => s = c
  | _ => false

lemma steady_perform {c : SocketId} (n : Network) {a : Action} (ha : a.sways c = false)
    (hc : c.num < n.nextId) : Steady c n (n.perform a).2 := by
  cases a with
  | advance d =>
    apply Steady.of_eq
    simp only [perform, level?, get?_advance]
  | connect p =>
    rcases n.connect_eq p with h | ⟨l, h⟩
    · simp only [perform, h]
      exact .refl c n
    · have hne : (⟨n.nextId⟩ : SocketId) ≠ c := by
        rintro rfl
        exact Nat.lt_irrefl _ hc
      simp only [perform, h]
      apply Steady.of_eq
      simp only [level?, get?, Table.get?_set, if_neg hne]
  | peerSend s bs =>
    have hs : s ≠ c := by simpa [Action.sways] using ha
    apply Steady.of_eq
    simp only [perform, level?, get?_peerSend, if_neg hs]
  | peerClose s => exact n.steady_close (by simpa [Action.sways] using ha)
  | peerTake s =>
    simp only [perform, peerTake]
    split
    · exact n.steady_update fun _ k => ⟨rfl, rfl, rfl⟩
    · exact .refl c n
  | stall s on =>
    have hs : s ≠ c := by simpa [Action.sways] using ha
    exact n.steady_update fun he => absurd he hs
  | timer s | socket s | listening p | openCount | now => exact .refl c n
  | bind p => exact n.steady_bind c p
  | closeListener s => exact .of_eq rfl
  | send s bs =>
    have hs : s ≠ c := by simpa [Action.sways] using ha
    exact n.steady_update fun he => absurd he hs
  | abort s => exact n.steady_close (by simpa [Action.sways] using ha)
  | schedule s d => exact steady_schedule c s n d
  | recv s k => exact n.steady_recv k (by simpa [Action.sways] using ha)
  | poll => exact n.steady_poll c

end Network

/-- Whether the call reads, writes, arms or closes the stream under `h`. -/
def Call.uses {κ : Type} (h : Handle) : Call Handle κ → Bool
  | .close k | .arm k _ _ | .read k _ | .write k _ => k = h
  | _ => false

namespace Site

variable {κ : Type}

def Steady (c : SocketId) (s s' : Site κ) : Prop := Network.Steady c s.network s'.network

lemma steady_abort {c d : SocketId} (s : Site κ) (hd : d ≠ c) : Steady c s (s.abort d) := by
  rw [abort]
  split
  · exact s.network.steady_close hd
  · exact .refl c _

lemma get?_aborts {c : SocketId} (ds : List SocketId) (s : Site κ) (hc : c ∉ ds) :
    (ds.foldl abort s).network.get? c = s.network.get? c := by
  induction ds generalizing s with
  | nil => rfl
  | cons d ds ih =>
    rw [List.mem_cons, not_or] at hc
    refine (ih _ hc.2).trans ?_
    rw [abort]
    split
    · exact (s.network.get?_close d c).trans (if_neg (Ne.symm hc.1))
    · rfl

lemma get?_openListener (s : Site κ) (callback : κ) (c : SocketId) :
    (s.openListener callback).2.network.get? c = s.network.get? c := by
  have hb := s.network.get?_bind s.manager.port c
  rw [Site.openListener]
  dsimp only
  split
  · rfl
  · split <;> next heq => rwa [heq] at hb

lemma steady_openListener (c : SocketId) (s : Site κ) (callback : κ) :
    Steady c s (s.openListener callback).2 :=
  .of_eq (by rw [Network.level?, Network.level?, get?_openListener])

lemma get?_closeListener {c : SocketId} (s : Site κ) (hc : c ∉ s.manager.backlog.sockets) :
    s.closeListener.network.get? c = s.network.get? c := by
  rw [closeListener]
  split
  · rfl
  · next l hl =>
    let s₁ : Site κ := { s with
      network := s.network.closeListener l.socket
      manager := { s.manager with listener := none, backlog := [] } }
    exact get?_aborts s.manager.backlog.sockets s₁ hc

lemma steady_closeListener {c : SocketId} (s : Site κ) (hc : c ∉ s.manager.backlog.sockets) :
    Steady c s s.closeListener :=
  .of_eq (by rw [Network.level?, Network.level?, s.get?_closeListener hc])

lemma network_accept (s : Site κ) : s.accept.2.network = s.network := by
  rw [accept]
  dsimp only
  split
  · rfl
  · split <;> rfl

lemma steady_close {c : SocketId} (s : Site κ) {g : Handle}
    (hg : ∀ r, s.manager.streams.get? g = some r → r.socket ≠ some c) : Steady c s (s.close g) := by
  rw [close]
  dsimp only
  split
  · exact .refl c _
  · next r hr =>
    split
    · next d hd =>
      have hne : d ≠ c := by
        rintro rfl
        exact hg r hr hd
      let s₁ : Site κ := s.put { s.manager with
        streams := s.manager.streams.remove g
        sockets := s.manager.sockets.erase d
        active := s.manager.active - 1
        stagger := s.manager.stagger.closed s.now }
      exact s₁.steady_abort hne
    · exact .refl c _

lemma network_arm (s : Site κ) (g : Handle) (want : Interests) (callback : Option κ) :
    (s.arm g want callback).2.network = s.network := by
  rw [arm]
  split
  · rfl
  · dsimp only
    split
    · rfl
    · split
      · rw [releaseOrphan]
        split <;> rfl
      · rfl

lemma steady_read {c : SocketId} (s : Site κ) {g : Handle} (k : Nat)
    (hg : ∀ r, s.manager.streams.get? g = some r → r.socket ≠ some c) :
    Steady c s (s.read g k).2 := by
  rw [read]
  split
  · exact .refl c _
  · next r hr =>
    split
    · exact .refl c _
    · next d hd =>
      have hne : d ≠ c := by
        rintro rfl
        exact hg r hr hd
      split
      · exact .refl c _
      · have hrecv := s.network.steady_recv k hne
        dsimp only [Steady]
        split
        · exact hrecv.trans (Network.steady_schedule c d _ _)
        · exact hrecv

lemma steady_write {c : SocketId} (s : Site κ) {g : Handle} (bytes : Bytes)
    (hg : ∀ r, s.manager.streams.get? g = some r → r.socket ≠ some c) :
    Steady c s (s.write g bytes).2 := by
  rw [write]
  split
  · exact .refl c _
  · next r hr =>
    split
    · exact .refl c _
    · next d hd =>
      have hne : d ≠ c := by
        rintro rfl
        exact hg r hr hd
      dsimp only
      split
      · exact .refl c _
      · exact s.network.steady_update fun he => absurd he hne

lemma steady_call {c : SocketId} (s : Site κ) (call : Call Handle κ)
    (hc : c ∉ s.manager.backlog.sockets)
    (hu : ∀ g r, s.manager.streams.get? g = some r → r.socket = some c → call.uses g = false) :
    Steady c s (call.perform s).2 := by
  have hg : ∀ g, call.uses g = true → ∀ r, s.manager.streams.get? g = some r →
      r.socket ≠ some c := by
    intro g hcall r hr hrc
    rw [hu g r hr hrc] at hcall
    cases hcall
  cases call with
  | openListener callback => exact s.steady_openListener c callback
  | closeListener => exact s.steady_closeListener hc
  | port | closeOutput g | state g | stats => exact .refl c _
  | accept => exact .of_eq (congrArg (Network.level? · c) s.network_accept)
  | close g => exact s.steady_close (hg g (by simp [Call.uses]))
  | arm g want callback => exact .of_eq (congrArg (Network.level? · c) (s.network_arm g want callback))
  | read g k => exact s.steady_read k (hg g (by simp [Call.uses]))
  | write g bytes => exact s.steady_write bytes (hg g (by simp [Call.uses]))

/-! ### Jobs of a turn -/

lemma steady_detach {c : SocketId} {s : Site κ} {g : Handle} {r : Stream κ} {d : SocketId}
    (abortive : Bool) (hr : s.manager.streams.get? g = some r) (hd : r.socket = some d)
    (hne : abortive = true → d ≠ c) : Steady c s (s.detach g abortive) := by
  let s₁ : Site κ := s.put { s.manager.updateStream g fun r => { r with socket := none } with
    sockets := s.manager.sockets.erase d
    active := s.manager.active - 1
    stagger := s.manager.stagger.closed s.now }
  have h₁ : Steady c s (if abortive then s₁.abort d else s₁) := by
    split
    · next hab => exact s₁.steady_abort (hne hab)
    · exact .refl c _
  rw [detach]
  simp only [hr, hd]
  cases hi : r.interests.isEmpty with
  | true => exact h₁
  | false => exact h₁

/-- Some stream of the site has the socket `c`. -/
def Keeps (s : Site κ) (c : SocketId) : Prop :=
  ∃ g r, s.manager.streams.get? g = some r ∧ r.socket = some c

lemma not_keeps_detach {s : Site κ} {g : Handle} {r : Stream κ} {c : SocketId} (abortive : Bool)
    (hm : s.manager.Coherent) (hr : s.manager.streams.get? g = some r) (hc : r.socket = some c) :
    ¬ (s.detach g abortive).Keeps c := by
  rintro ⟨g', r', hr', hc'⟩
  rw [(detach_frame abortive hr hc).2.1 g'] at hr'
  split at hr'
  · split at hr'
    · cases hr'
    · cases hr'
      cases hc'
  · next hg =>
    exact hg (hm.eq_of_socket hr' hc' hr hc)

lemma steady_evict {c : SocketId} {s : Site κ} (hm : s.manager.Coherent)
    (hk : s.Keeps c → s.evict.2.Keeps c) : Steady c s s.evict.2 := by
  rw [evict] at hk ⊢
  dsimp only at hk ⊢
  split at hk
  · next hfree =>
    rw [if_pos hfree]
    exact .refl c _
  · next hfull =>
    rw [if_neg hfull]
    split at hk
    · exact .refl c _
    · next v hv =>
      obtain ⟨hv, -⟩ := Option.filter_eq_some_iff.mp hv
      obtain ⟨r, hr, hs, -⟩ := (mem_candidates_iff _ _).mp (Candidate.mem_of_oldest? hv)
      obtain ⟨d, hd⟩ := Option.isSome_iff_exists.mp hs
      let s₁ := ((s.note (.evicted v.stream (v.idleTime s.now))).put { s.manager with
        totals := { s.manager.totals with evicted := s.manager.totals.evicted + 1 } }).count
          (·.countEvicted)
      have hm₁ : s₁.manager.Coherent := ⟨hm.arena, hm.linked, hm.counted, hm.single⟩
      refine steady_detach (s := s₁) true hr hd fun _ => ?_
      rintro rfl
      exact not_keeps_detach true hm₁ hr hd (hk ⟨v.stream, r, hr, hd⟩)

lemma judge_snd (s : Site κ) : s.judge.2 = s.evict.2 ∨ s.judge.2 = s := by
  rw [judge]
  split
  · left
    split <;> next heq => rw [heq]
  · exact .inr rfl

lemma steady_onAccepted {c : SocketId} {s : Site κ} {d : SocketId} (l : SocketId)
    (hm : s.manager.Coherent) (hne : d ≠ c) (hk : s.Keeps c → (s.onAccepted d l).Keeps c) :
    Steady c s (s.onAccepted d l) := by
  rw [onAccepted] at hk ⊢
  split at hk
  · next hl =>
    rw [if_pos hl]
    exact steady_abort (s.note (.lateConnection d)) hne
  · next hl =>
    rw [if_neg hl]
    have hj : (s.Keeps c → s.judge.2.Keeps c) → Steady c s s.judge.2 := by
      intro hk
      rcases s.judge_snd with h | h
      · rw [h] at hk ⊢
        exact steady_evict hm hk
      · rw [h]
        exact .refl c _
    split at hk
    · next s₁ hs₁ =>
      rw [hs₁] at hj
      exact hj hk
    · next reason s₁ hs₁ =>
      rw [hs₁] at hj
      let s₂ := ((s₁.put { s₁.manager with totals :=
        { s₁.manager.totals with rejected := s₁.manager.totals.rejected + 1 } }).count
          (·.countRefused reason)).note (.refused d reason)
      have hk₁ : s.Keeps c → s₁.Keeps c := by
        intro hs
        obtain ⟨g, r, hr, hc⟩ := hk hs
        refine ⟨g, r, ?_, hc⟩
        have hst : (s₂.abort d).manager.streams = s₁.manager.streams := (abort_frame s₂ d).1
        exact (congrArg (Arena.get? · g) hst).symm.trans hr
      exact (hj hk₁).trans (s₂.steady_abort hne)

lemma network_detach (s : Site κ) (g : Handle) : (s.detach g false).network = s.network := by
  rw [detach]
  split
  · rfl
  · split
    · rfl
    · dsimp only
      split <;> rfl

lemma network_onClosed (s : Site κ) (d : SocketId) : (s.onClosed d).network = s.network := by
  rw [onClosed]
  split
  · rfl
  · split
    · next g _ => exact network_detach (s.note (.peerClosed g d)) g
    · rfl

lemma network_evaluate (s : Site κ) (g : Handle) : (s.evaluate g).1.network = s.network := by
  rw [evaluate]
  split
  · rfl
  · split
    · split
      · rfl
      · split <;> rfl
    · rfl

lemma network_deliverEnd (s : Site κ) (g : Handle) : (s.deliverEnd g).1.network = s.network := by
  rw [deliverEnd]
  split
  · rfl
  · split
    · split
      · rfl
      · split <;> rfl
    · rfl

lemma network_offerPending (s : Site κ) : s.offerPending.1.network = s.network := by
  rw [offerPending]
  dsimp only
  split
  · rfl
  · split
    · split <;> rfl
    · rfl

lemma steady_handle {c : SocketId} {s : Site κ} {e : SocketEvent} (hm : s.manager.Coherent)
    (he : e.accepted? ≠ some c) (hk : s.Keeps c → (s.handle e).1.Keeps c) :
    Steady c s (s.handle e).1 := by
  obtain ⟨d, k⟩ := e
  cases k with
  | accepted l => exact steady_onAccepted l hm (fun hd => he (congrArg some hd)) hk
  | closed => exact .of_eq (congrArg (Network.level? · c) (s.network_onClosed d))
  | received | sent | timer | poll =>
    rw [handle]
    dsimp only
    split
    · next g _ => exact .of_eq (congrArg (Network.level? · c) (s.network_evaluate g))
    · exact .refl c _

end Site

/-- Only arrivals and the end of a turn close connections. -/
lemma Agenda.network_next {κ : Type} {s : Site κ} {a b : Agenda} (ha : awaiting a.batch = [])
    (hb : (a.next s).1 = some b) : (a.next s).2.1.network = s.network := by
  rcases a with (_ | ⟨⟨c, k⟩, es⟩) | (_ | ⟨g, hs⟩) | _
  · rfl
  · cases k with
    | accepted l => cases ha
    | closed => exact s.network_onClosed c
    | received | sent | timer | poll =>
      simp only [next, Site.handle]
      split
      · next g _ => exact s.network_evaluate g
      · rfl
  · exact s.network_offerPending
  · exact s.network_deliverEnd g
  · cases hb

/-- A job of a turn leaves alone a connection that no stream loses by it and that neither arrives nor is
given up. -/
lemma Agenda.steady_next {κ : Type} {c : SocketId} {s : Site κ} {a : Agenda}
    (hm : s.manager.Coherent) (hd : c ∉ s.manager.deferred) (ha : c ∉ awaiting a.batch)
    (hk : s.Keeps c → (a.next s).2.1.Keeps c) : Site.Steady c s (a.next s).2.1 := by
  rcases a with (_ | ⟨e, es⟩) | (_ | ⟨g, hs⟩) | _
  · exact .refl c _
  · refine Site.steady_handle hm (fun he => ha ?_) hk
    exact List.mem_filterMap.mpr ⟨e, List.mem_cons_self, he⟩
  · exact .of_eq (congrArg (Network.level? · c) s.network_offerPending)
  · exact .of_eq (congrArg (Network.level? · c) (s.network_deliverEnd g))
  · exact Network.steady_closes _ _ hd

namespace Site

variable {κ : Type}

/-- The manager of the site has nothing to do with the connection `c`. -/
structure Foreign (c : SocketId) (s : Site κ) : Prop where
  pending : c ∉ s.manager.backlog.sockets
  deferred : c ∉ s.manager.deferred
  streams : ¬ s.Keeps c

lemma foreign_of_not_mem_held {c : SocketId} {s : Site κ} (hm : s.manager.Coherent)
    (hc : c ∉ s.manager.held) : Foreign c s := by
  simp only [Manager.held, List.mem_append, not_or] at hc
  refine ⟨hc.1.1, hc.2, ?_⟩
  rintro ⟨g, r, hr, hrc⟩
  exact hc.1.2 (hm.mem_keys hr hrc)

lemma Foreign.abort {c d : SocketId} {s : Site κ} (hs : Foreign c s) (hd : d ≠ c) :
    Foreign c (s.abort d) := by
  rw [Site.abort]
  split
  · exact ⟨hs.pending, hs.deferred, hs.streams⟩
  · refine ⟨hs.pending, ?_, hs.streams⟩
    simpa [put, Ne.symm hd] using hs.deferred

lemma Foreign.aborts {c : SocketId} (ds : List SocketId) {s : Site κ} (hs : Foreign c s)
    (hc : c ∉ ds) : Foreign c (ds.foldl Site.abort s) := by
  induction ds generalizing s with
  | nil => exact hs
  | cons d ds ih =>
    simp only [List.mem_cons, not_or] at hc
    exact ih (hs.abort (Ne.symm hc.1)) hc.2

lemma Foreign.closeListener {c : SocketId} {s : Site κ} (hs : Foreign c s) :
    Foreign c s.closeListener := by
  rw [Site.closeListener]
  split
  · exact hs
  · next l hl =>
    let s₁ : Site κ := { s with
      network := s.network.closeListener l.socket
      manager := { s.manager with listener := none, backlog := [] } }
    have h₁ : Foreign c s₁ := ⟨by simp [s₁, Backlog.sockets], hs.deferred, hs.streams⟩
    obtain ⟨hp, hd, hk⟩ := h₁.aborts s.manager.backlog.sockets hs.pending
    exact ⟨hp, hd, hk⟩

lemma Foreign.close {c : SocketId} {s : Site κ} (hs : Foreign c s) (g : Handle) :
    Foreign c (s.close g) := by
  have hk : ∀ {a : Arena (Stream κ)}, a = s.manager.streams.remove g →
      ¬ ∃ g' r, a.get? g' = some r ∧ r.socket = some c := by
    rintro _ rfl ⟨g', r, hr, hc⟩
    rw [Arena.get?_remove] at hr
    split at hr
    · cases hr
    · exact hs.streams ⟨g', r, hr, hc⟩
  rw [Site.close]
  dsimp only
  split
  · exact ⟨hs.pending, hs.deferred, hs.streams⟩
  · next r hr =>
    split
    · next d hd =>
      let s₁ : Site κ := s.put { s.manager with
        streams := s.manager.streams.remove g
        sockets := s.manager.sockets.erase d
        active := s.manager.active - 1
        stagger := s.manager.stagger.closed s.now }
      have hne : d ≠ c := by
        rintro rfl
        exact hs.streams ⟨g, r, hr, hd⟩
      have h₁ : Foreign c s₁ := ⟨hs.pending, hs.deferred, hk rfl⟩
      obtain ⟨hp, hd, hk⟩ := h₁.abort hne
      exact ⟨hp, hd, hk⟩
    · exact ⟨hs.pending, hs.deferred, hk rfl⟩

lemma Foreign.closes {c : SocketId} (gs : List Handle) {s : Site κ} (hs : Foreign c s) :
    Steady c s (gs.foldl Site.close s) ∧ Foreign c (gs.foldl Site.close s) := by
  induction gs generalizing s with
  | nil => exact ⟨.refl c _, hs⟩
  | cons g gs ih =>
    have h₁ : Steady c s (s.close g) := s.steady_close fun r hr hc => hs.streams ⟨g, r, hr, hc⟩
    obtain ⟨h₂, hs'⟩ := ih (hs.close g)
    exact ⟨h₁.trans h₂, hs'⟩

lemma steady_release {c : SocketId} {s : Site κ} (hs : Foreign c s) : Steady c s s.release := by
  have h₁ := s.steady_closeListener hs.pending
  obtain ⟨h₂, hs'⟩ := hs.closeListener.closes s.closeListener.manager.streams.handles
  have h₃ := Network.steady_closes _
    (s.closeListener.manager.streams.handles.foldl close s.closeListener).network hs'.deferred
  exact (h₁.trans h₂).trans h₃

lemma steady_leave {c : SocketId} {s : Site κ} (hc : c ∉ s.manager.deferred) :
    Steady c s s.leave := by
  rw [leave]
  dsimp only
  split
  · exact Network.steady_closes _ _ hc
  · exact .refl c _

end Site

namespace Moment

variable {κ : Type}

/-- A connection that one manager holds is on nobody's way in and held by no other manager. -/
lemma Orderly.not_mem_of_mem_held {w : Moment κ} (hw : w.Orderly) {i : Nat} {m : Manager κ}
    (hm : w.manager? i = some m) {c : SocketId} (hc : c ∈ m.held) :
    c ∉ w.arriving ∧ ∀ j m', j ≠ i → w.manager? j = some m' → c ∉ m'.held := by
  have hcount := count_held_set hm none c
  have hsingle := hw.single c
  have hpos := List.count_pos_iff.mpr hc
  simp only [tokens, List.count_append, Option.elim_none, List.count_nil] at hcount hsingle
  refine ⟨fun hmem => ?_, fun j m' hj hm' hmem => ?_⟩
  · have := List.count_pos_iff.mpr hmem
    omega
  · have hin : c ∈ (w.managers.set i none).flatMap (·.elim [] Manager.held) := by
      rw [List.mem_flatMap]
      refine ⟨some m', ?_, hmem⟩
      rw [manager?_eq_some_iff] at hm'
      have hset : (w.managers.set i none)[j]? = some (some m') := by
        rw [List.getElem?_set_ne (Ne.symm hj), hm']
      exact List.mem_of_getElem? hset
    have := List.count_pos_iff.mpr hin
    omega

lemma Orderly.not_mem_deferred {w : Moment κ} (hw : w.Orderly) {i j : Nat} {m m' : Manager κ}
    (hm : w.manager? i = some m) {c : SocketId} (hc : c ∈ m.sockets.keys)
    (hm' : w.manager? j = some m') : c ∉ m'.backlog.sockets ∧ c ∉ m'.deferred := by
  have hheld : c ∈ m.held := by simp [Manager.held, hc]
  by_cases hij : j = i
  · subst hij
    rw [hm] at hm'
    cases hm'
    have hn := (hw.coherent j m hm).nodup_held
    rw [Manager.held, List.nodup_append] at hn
    have hn' := List.nodup_append.mp hn.1
    exact ⟨fun hb => hn'.2.2 c hb c hc rfl, fun hd => hn.2.2 c (by simp [hc]) c hd rfl⟩
  · have hnot := (hw.not_mem_of_mem_held hm hheld).2 j m' hij hm'
    simp only [Manager.held, List.mem_append, not_or] at hnot
    exact ⟨hnot.1.1, hnot.2⟩

/-- What may change what waits in the connection `c` of the stream under `h` of manager `i`. -/
def disturbs (i : Nat) (h : Handle) (c : SocketId) : Move κ × Outcome κ → Bool
  | (.call k call, _) => k = i && call.uses h
  | (.network a, _) => a.sways c
  | _ => false

/-- The levels of the connection of a stream that keeps it stay, unless the consumer uses the stream or
somebody acts on the connection itself. -/
lemma Step.steady {w w' : Moment κ} {mv : Move κ} {o : Outcome κ} (hw : w.Orderly)
    (hstep : Step w mv o w') {i : Nat} {h : Handle} {c : SocketId} {m m' : Manager κ}
    {r r' : Stream κ} (hm : w.manager? i = some m) (hr : m.streams.get? h = some r)
    (hc : r.socket = some c) (hm' : w'.manager? i = some m') (hr' : m'.streams.get? h = some r')
    (hc' : r'.socket = some c) (hd : disturbs i h c (mv, o) = false) :
    Network.Steady c w.network w'.network := by
  have hkey := (hw.coherent i m hm).mem_keys hr hc
  have hheld : c ∈ m.held := by simp [Manager.held, hkey]
  obtain ⟨harriving, hothers⟩ := hw.not_mem_of_mem_held hm hheld
  have hforeign : ∀ j s, j ≠ i → w.site? j = some s → Site.Foreign c s := fun j s hj hs =>
    Site.foreign_of_not_mem_held (hw.coherent_site hs)
      (hothers j s.manager hj (manager?_of_site? hs))
  have hclear : ∀ j s, w.site? j = some s →
      c ∉ s.manager.backlog.sockets ∧ c ∉ s.manager.deferred := fun j s hs =>
    hw.not_mem_deferred hm hkey (manager?_of_site? hs)
  have hnet : ∀ j s, w.site? j = some s → w.network = s.network :=
    fun j s hs => ((w.site?_eq_some_iff j s).mp hs).2.1
  cases hstep with
  | network a hact =>
    refine w.network.steady_perform hd (hw.fresh c ?_)
    rw [tokens, List.mem_append]
    exact .inr (List.mem_flatMap.mpr ⟨some m, List.mem_of_getElem? ((w.manager?_eq_some_iff i m).mp hm),
      hheld⟩)
  | note n hact | create o hact => exact .refl c _
  | call j call s hact hs =>
    rw [hnet j s hs]
    refine s.steady_call call (hclear j s hs).1 fun g q hq hqc => ?_
    by_cases hij : j = i
    · subst hij
      rw [manager?_of_site? hs] at hm
      cases hm
      -- Only the stream under `h` has this socket.
      obtain rfl := (hw.coherent_site hs).eq_of_socket hr hc hq hqc
      simpa [disturbs] using hd
    · exact absurd ⟨g, q, hq, hqc⟩ (hforeign j s hij hs).streams
  | release j s hact hin hs =>
    rw [manager?_release hs] at hm'
    split at hm'
    · cases hm'
    · next hij =>
      rw [hnet j s hs]
      exact Site.steady_release (hforeign j s hij hs)
  | begin j s hact hin hs =>
    rw [hnet j s hs]
    exact s.network.steady_poll c
  | proceed j a fs s hf hs =>
    have hnext : Network.Steady c s.network (a.next s).2.1.network := by
      refine Agenda.steady_next (hw.coherent_site hs) (hclear j s hs).2 (fun ha => harriving ?_) ?_
      · rw [arriving, hf, List.flatMap_cons, awaiting_append]
        simp [ha]
      · by_cases hij : j = i
        · subst hij
          intro _
          have hput := ((site?_eq_some_iff _ j _).mp (site?_put hs
            ((a.next s).2.2.elim (a.next s).2.1 fun _ => (a.next s).2.1.enter))).1
          rw [proceed_eq] at hm'
          cases hput.symm.trans hm'
          refine ⟨h, r', ?_, hc'⟩
          cases hn : (a.next s).2.2 <;> rwa [hn] at hr'
        · exact fun hk => absurd hk (hforeign j s hij hs).streams
    rw [proceed_eq, hnet j s hs]
    cases hn : (a.next s).2.2 with
    | none => exact hnext
    | some n => exact hnext
  | leave j a n fs s hf hs =>
    rw [hnet j s hs]
    exact Site.steady_leave (hclear j s hs).2

end Moment

end BoundedStreams
