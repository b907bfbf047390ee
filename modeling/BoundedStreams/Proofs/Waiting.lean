import BoundedStreams.Proofs.Levels

/-! The connections that wait to be claimed. A turn gives up connections, brings some from the way in
into the backlog, and does nothing else to those that nobody has claimed. -/

namespace BoundedStreams

namespace Network

/-- Some connections were closed, and that is all. -/
def Sheds (n n' : Network) : Prop := ∃ cs : List SocketId, n' = cs.foldl close n

lemma Sheds.refl (n : Network) : n.Sheds n := ⟨[], rfl⟩

lemma Sheds.trans {n₁ n₂ n₃ : Network} (h : n₁.Sheds n₂) (h' : n₂.Sheds n₃) : n₁.Sheds n₃ := by
  obtain ⟨cs, rfl⟩ := h
  obtain ⟨ds, rfl⟩ := h'
  exact ⟨cs ++ ds, by rw [List.foldl_append]⟩

lemma Sheds.get? {n n' : Network} (h : n.Sheds n') {c : SocketId} {k : Connection}
    (hk : n'.get? c = some k) : n.get? c = some k := by
  obtain ⟨cs, rfl⟩ := h
  induction cs generalizing n with
  | nil => exact hk
  | cons d cs ih =>
    have hd := ih hk
    rw [get?_close] at hd
    split at hd
    · cases hd
    · exact hd

lemma Sheds.awaiting {n n' : Network} (h : n.Sheds n') :
    awaiting n'.queue = awaiting n.queue := by
  obtain ⟨cs, rfl⟩ := h
  exact n.awaiting_foldl_close cs

end Network

namespace Site

variable {κ : Type}

def Sheds (s s' : Site κ) : Prop := s.network.Sheds s'.network

lemma sheds_abort (s : Site κ) (c : SocketId) : Sheds s (s.abort c) := by
  rw [abort]
  split
  · exact ⟨[c], rfl⟩
  · exact .refl _

lemma sheds_aborts (cs : List SocketId) (s : Site κ) : Sheds s (cs.foldl abort s) := by
  induction cs generalizing s with
  | nil => exact .refl _
  | cons c cs ih => exact (s.sheds_abort c).trans (ih _)

/-- When the listener is closed, what was pending is closed with it. -/
lemma sheds_closeListener {s : Site κ} {l : Listener κ} (hl : s.manager.listener = some l) :
    (s.network.closeListener l.socket).Sheds s.closeListener.network := by
  simp only [closeListener, hl]
  exact sheds_aborts s.manager.backlog.sockets { s with
    network := s.network.closeListener l.socket
    manager := { s.manager with listener := none, backlog := [] } }

lemma closeListener_of_none {s : Site κ} (hl : s.manager.listener = none) : s.closeListener = s := by
  rw [closeListener, hl]

lemma get?_of_closeListener {s : Site κ} {c : SocketId} {q : Connection}
    (hq : s.closeListener.network.get? c = some q) : s.network.get? c = some q := by
  cases hl : s.manager.listener with
  | none => rwa [closeListener_of_none hl] at hq
  | some l => exact (sheds_closeListener hl).get? hq

lemma sheds_close (s : Site κ) (h : Handle) : Sheds s (s.close h) := by
  rw [close]
  dsimp only
  split
  · exact .refl _
  · split
    · next c _ =>
      let s₁ : Site κ := s.put { s.manager with
        streams := s.manager.streams.remove h
        sockets := s.manager.sockets.erase c
        active := s.manager.active - 1
        stagger := s.manager.stagger.closed s.now }
      exact s₁.sheds_abort c
    · exact .refl _

lemma sheds_closes (hs : List Handle) (s : Site κ) : Sheds s (hs.foldl close s) := by
  induction hs generalizing s with
  | nil => exact .refl _
  | cons h hs ih => exact (s.sheds_close h).trans (ih _)

lemma sheds_release (s : Site κ) : Sheds s.closeListener s.release :=
  (sheds_closes _ _).trans ⟨_, rfl⟩

lemma sheds_leave (s : Site κ) : Sheds s s.leave := by
  rw [leave]
  dsimp only
  split
  · exact ⟨_, rfl⟩
  · exact .refl _

lemma sheds_detach (s : Site κ) (h : Handle) (abortive : Bool) : Sheds s (s.detach h abortive) := by
  cases hr : s.manager.streams.get? h with
  | none =>
    simp only [detach, hr]
    exact .refl _
  | some r =>
    cases hc : r.socket with
    | none =>
      simp only [detach, hr, hc]
      exact .refl _
    | some c =>
      let s₁ : Site κ := s.put { s.manager.updateStream h fun r => { r with socket := none } with
        sockets := s.manager.sockets.erase c
        active := s.manager.active - 1
        stagger := s.manager.stagger.closed s.now }
      have h₁ : Sheds s (if abortive then s₁.abort c else s₁) := by
        split
        · exact s₁.sheds_abort c
        · exact .refl _
      rw [detach]
      simp only [hr, hc]
      cases r.interests.isEmpty <;> exact h₁

lemma sheds_evict (s : Site κ) : Sheds s s.evict.2 := by
  rw [evict]
  dsimp only
  split
  · exact .refl _
  · split
    · exact .refl _
    · next v _ =>
      let s₁ := ((s.note (.evicted v.stream (v.idleTime s.now))).put { s.manager with
        totals := { s.manager.totals with evicted := s.manager.totals.evicted + 1 } }).count
          (·.countEvicted)
      exact s₁.sheds_detach v.stream true

lemma sheds_onAccepted (s : Site κ) (c l : SocketId) : Sheds s (s.onAccepted c l) := by
  rw [onAccepted]
  split
  · exact (s.note (.lateConnection c)).sheds_abort c
  · have hj : Sheds s s.judge.2 := by
      rcases s.judge_snd with h | h
      · rw [h]
        exact s.sheds_evict
      · rw [h]
        exact .refl _
    split
    · next s₁ hs₁ =>
      rw [hs₁] at hj
      exact hj
    · next reason s₁ hs₁ =>
      rw [hs₁] at hj
      let s₂ := ((s₁.put { s₁.manager with totals :=
        { s₁.manager.totals with rejected := s₁.manager.totals.rejected + 1 } }).count
          (·.countRefused reason)).note (.refused c reason)
      exact hj.trans (s₂.sheds_abort c)

lemma sheds_onClosed (s : Site κ) (c : SocketId) : Sheds s (s.onClosed c) := by
  rw [onClosed]
  split
  · exact .refl _
  · split
    · next h _ => exact (s.note (.peerClosed h c)).sheds_detach h false
    · exact .refl _

lemma sheds_handle (s : Site κ) (e : SocketEvent) : Sheds s (s.handle e).1 := by
  obtain ⟨c, k⟩ := e
  cases k with
  | accepted l => exact s.sheds_onAccepted c l
  | closed => exact s.sheds_onClosed c
  | received | sent | timer | poll =>
    rw [handle]
    dsimp only
    split
    · next h _ => exact ⟨[], s.network_evaluate h⟩
    · exact .refl _

lemma sheds_next (s : Site κ) (a : Agenda) : Sheds s (a.next s).2.1 := by
  rcases a with (_ | ⟨e, es⟩) | (_ | ⟨h, hs⟩) | _
  · exact .refl _
  · exact s.sheds_handle e
  · exact ⟨[], s.network_offerPending⟩
  · exact ⟨[], s.network_deliverEnd h⟩
  · exact ⟨_, rfl⟩

/-! ### The way in and the backlog -/

lemma Does.mem_pending {d : Deed} {s s' : Site κ} (h : Does d s s') {c : SocketId}
    (hc : c ∈ s'.manager.backlog.sockets) : c ∈ s.manager.backlog.sockets ∨ c ∈ d.admitted := by
  cases h with
  | keep h | tend k f hf h | refuse c' hd h | dismiss k r hr hc' h | enter h | flush h
  | orphan k r c' ab hd hr hc' hi h | free k r c' ab hd hr hc' hi h => exact .inl (h.pending ▸ hc)
  | enqueue c' hd ha h =>
    rw [h.pending] at hc
    simpa [put, Deed.admitted] using hc
  | withdraw c' hc' h =>
    rw [h.pending] at hc
    rw [show (s.put { s.manager with backlog := s.manager.backlog.withdraw c' }).manager.backlog =
      s.manager.backlog.withdraw c' from rfl, Backlog.sockets_withdraw] at hc
    exact .inl (List.mem_of_mem_erase hc)
  | shed p b hb h =>
    have hsame : ((s.put { s.manager with backlog := b }).abort p.socket).manager.backlog = b := by
      rw [abort]
      split <;> rfl
    rw [h.pending, hsame] at hc
    rw [hb]
    exact .inl (List.mem_cons_of_mem _ hc)
  | claim k a p b hb hcap hi h =>
    rw [h.pending] at hc
    rw [hb]
    exact .inl (List.mem_cons_of_mem _ hc)
  | close k r c' hr hc' h =>
    have hsame : ((s.put { s.manager with
        streams := s.manager.streams.remove k
        sockets := s.manager.sockets.erase c'
        active := s.manager.active - 1 }).abort c').manager.backlog = s.manager.backlog := by
      rw [abort]
      split <;> rfl
    rw [h.pending, hsame] at hc
    exact .inl hc
  | leave h =>
    have hsame : s.leave.manager.backlog = s.manager.backlog := by
      rw [Site.leave]
      dsimp only
      split <;> rfl
    rw [h.pending, hsame] at hc
    exact .inl hc

lemma Did.mem_pending {ds : List Deed} {s s' : Site κ} (h : Did ds s s') {c : SocketId}
    (hc : c ∈ s'.manager.backlog.sockets) :
    c ∈ s.manager.backlog.sockets ∨ c ∈ ds.flatMap Deed.admitted := by
  induction h with
  | nil s => exact .inl hc
  | @cons d ds s s₁ s' hd _ ih =>
    rw [List.flatMap_cons, List.mem_append]
    rcases ih hc with hc | hc
    · rcases hd.mem_pending hc with hc | hc
      · exact .inl hc
      · exact .inr (.inl hc)
    · exact .inr (.inr hc)

/-- The connections that nobody has claimed yet, on their way in or in the backlog. -/
def waiting (s : Site κ) (batch : List SocketEvent) : List SocketId :=
  s.manager.backlog.sockets ++ (awaiting batch ++ awaiting s.network.queue)

lemma Did.waiting {ds : List Deed} {s s' : Site κ} (h : Did ds s s')
    {batch batch' : List SocketEvent}
    (hb : (ds.flatMap Deed.admitted ++ awaiting batch').Sublist (awaiting batch)) :
    ∀ c ∈ s'.waiting batch', c ∈ s.waiting batch := by
  intro c hc
  simp only [Site.waiting, List.mem_append] at hc ⊢
  rw [h.traffic.1] at hc
  rcases hc with hc | hc | hc
  · rcases h.mem_pending hc with hc | hc
    · exact .inl hc
    · exact .inr (.inl (hb.subset (List.mem_append_left _ hc)))
  · exact .inr (.inl (hb.subset (List.mem_append_right _ hc)))
  · exact .inr (.inr hc)

lemma waiting_call (s : Site κ) (call : Call Handle κ) (batch : List SocketEvent) :
    ∀ c ∈ (call.perform s).2.waiting batch, c ∈ s.waiting batch := by
  obtain ⟨ds, hds, hall⟩ := s.did_call call
  have hnone : ds.flatMap Deed.admitted = [] :=
    List.flatMap_eq_nil_iff.mpr fun d hd => (Moment.call_allows_ne (hall d hd)).1
  exact hds.waiting (by rw [hnone]; exact List.Sublist.refl _)

lemma waiting_leave (s : Site κ) (batch : List SocketEvent) :
    ∀ c ∈ s.leave.waiting batch, c ∈ s.waiting batch :=
  (Does.did (.leave (.refl _))).waiting (List.Sublist.refl _)

end Site

namespace Moment

variable {κ : Type} {w : Moment κ} {i : Nat} {s : Site κ}

lemma sheds_proceed (hs : w.site? i = some s) (a : Agenda) (fs : List (Frame κ)) :
    w.network.Sheds (w.proceed i a fs s).2.network := by
  have hnext := s.sheds_next a
  rw [proceed_eq, ((w.site?_eq_some_iff i s).mp hs).2.1]
  show s.network.Sheds (Option.elim _ _ fun _ => Site.enter _).network
  cases (a.next s).2.2 <;> exact hnext

end Moment

end BoundedStreams
