import BoundedStreams.Proofs.Holdings

/-! What a call or a job of a turn makes of the stream under one handle: of its record, and of its place
among the orphans that wait to hear of their end. -/

namespace BoundedStreams

inductive Treatment (κ : Type) where
  | spare
  /-- Bytes were read from it. -/
  | touch
  | claim
  | arm (want : Interests) (callback : Option κ)
  | notify (callback : κ) (event : StreamEvent)
  /-- Its end was due and waits for the next turn. -/
  | postpone
  | lose
  | free

namespace Stream

variable {κ : Type}

/-- What there is to tell of a stream over the network `n`. -/
def due? (n : Network) (r : Stream κ) : Option StreamEvent :=
  match r.socket with
  | some c => Readiness.due? r.interests (n.inboundLen c) (n.outboundLen c)
  | none => Readiness.dueAtEnd? r.interests

def told (r : Stream κ) (e : StreamEvent) (turn : Nat) : Stream κ :=
  { r with readiness := ⟨r.interests, some e⟩, notifiedTurn := some turn }

/-- An orphan that is to hear of its end. -/
structure Mourned (r : Stream κ) : Prop where
  socket : r.socket = none
  callback : r.callback.isSome
  outstanding : r.readiness.outstanding = none
  wanted : r.interests.isEmpty = false

lemma has_of_due? {n : Network} {r : Stream κ} {e : StreamEvent} (h : r.due? n = some e) :
    r.interests.has e = true := by
  rw [due?] at h
  split at h
  · exact Readiness.has_of_due? h
  · exact Readiness.has_of_dueAtEnd? h

end Stream

namespace Site

variable {κ : Type}

inductive Course (h : Handle) (s s' : Site κ) : Treatment κ → Prop where
  | spare (hr : s'.manager.streams.get? h = s.manager.streams.get? h)
      (he : h ∈ s'.manager.ending ↔ h ∈ s.manager.ending) : Course h s s' .spare
  | touch (r : Stream κ) (hr : s.manager.streams.get? h = some r) (hc : r.socket ≠ none)
      (hr' : s'.manager.streams.get? h = some { r with lastActivity := s.now })
      (he : h ∈ s'.manager.ending ↔ h ∈ s.manager.ending) : Course h s s' .touch
  | claim (c : SocketId) (hr : s.manager.streams.get? h = none)
      (hr' : s'.manager.streams.get? h = some (.claimed c s.now))
      (he : h ∈ s'.manager.ending ↔ h ∈ s.manager.ending) : Course h s s' .claim
  | arm (want : Interests) (callback : Option κ) (r : Stream κ)
      (hr : s.manager.streams.get? h = some r)
      (hr' : s'.manager.streams.get? h = some (r.arm want callback))
      (hw : r.socket = none → want.isEmpty = false)
      (he : h ∈ s'.manager.ending ↔ h ∈ s.manager.ending ∨ r.socket = none) :
      Course h s s' (.arm want callback)
  | notify (callback : κ) (e : StreamEvent) (r : Stream κ) (hr : s.manager.streams.get? h = some r)
      (hc : r.callback = some callback) (ho : r.readiness.outstanding = none)
      (ht : r.notifiedTurn ≠ some s.manager.turns) (hd : r.due? s.network = some e)
      (hr' : s'.manager.streams.get? h = some (r.told e s.manager.turns))
      (he : h ∈ s'.manager.ending ↔ h ∈ s.manager.ending) : Course h s s' (.notify callback e)
  | postpone (r : Stream κ) (hr : s.manager.streams.get? h = some r) (hc : r.socket = none)
      (hr' : s'.manager.streams.get? h = some r) (he : h ∈ s'.manager.ending) :
      Course h s s' .postpone
  | lose (r : Stream κ) (c : SocketId) (hr : s.manager.streams.get? h = some r)
      (hc : r.socket = some c) (hi : r.interests.isEmpty = false)
      (hr' : s'.manager.streams.get? h = some { r with socket := none })
      (he : h ∈ s'.manager.ending) : Course h s s' .lose
  | free (r : Stream κ) (hr : s.manager.streams.get? h = some r)
      (hr' : s'.manager.streams.get? h = none)
      (he : h ∈ s'.manager.ending → h ∈ s.manager.ending ∧ r.socket ≠ none) : Course h s s' .free

lemma Course.gone {h : Handle} {s s' : Site κ} {t : Treatment κ} (hc : Course h s s' t)
    (ht : t = .lose ∨ t = .free) {r : Stream κ} (hr : s'.manager.streams.get? h = some r) :
    r.socket = none := by
  rcases ht with rfl | rfl
  · cases hc with
    | lose r₀ c hr₀ hc hi hr' he =>
      rw [hr'] at hr
      cases hr
      rfl
  · cases hc with
    | free r₀ hr₀ hr' he =>
      rw [hr'] at hr
      cases hr

/-- The operation from `s` to `s'` is no begin of a turn, and treats the stream under `h` by `t`. -/
structure Treats (h : Handle) (t : Treatment κ) (s s' : Site κ) : Prop where
  turns : s'.manager.turns = s.manager.turns
  course : Course h s s' t

/-- No stream is treated in any way. -/
structure Quiet (s s' : Site κ) : Prop where
  turns : s'.manager.turns = s.manager.turns
  streams : s'.manager.streams = s.manager.streams
  ending : s'.manager.ending = s.manager.ending

lemma Quiet.refl (s : Site κ) : s.Quiet s := ⟨rfl, rfl, rfl⟩

lemma Quiet.trans {s₁ s₂ s₃ : Site κ} (h : s₁.Quiet s₂) (h' : s₂.Quiet s₃) : s₁.Quiet s₃ :=
  ⟨h'.turns.trans h.turns, h'.streams.trans h.streams, h'.ending.trans h.ending⟩

lemma Quiet.treats {s s' : Site κ} (hq : s.Quiet s') (h : Handle) : Treats h .spare s s' :=
  ⟨hq.turns, .spare (by rw [hq.streams]) (by rw [hq.ending])⟩

lemma Treats.trans_quiet {h : Handle} {t : Treatment κ} {s s₁ s' : Site κ} (ht : Treats h t s s₁)
    (hq : s₁.Quiet s') : Treats h t s s' := by
  obtain ⟨htu, hcourse⟩ := ht
  refine ⟨hq.turns.trans htu, ?_⟩
  obtain ⟨-, hs, he⟩ := hq
  cases hcourse with
  | spare hr hm => exact .spare (by rw [hs, hr]) (by rw [he, hm])
  | touch r hr hc hr' hm => exact .touch r hr hc (by rw [hs, hr']) (by rw [he, hm])
  | claim c hr hr' hm => exact .claim c hr (by rw [hs, hr']) (by rw [he, hm])
  | arm want cb r hr hr' hw hm => exact .arm want cb r hr (by rw [hs, hr']) hw (by rw [he, hm])
  | notify cb e r hr hc ho ht hd hr' hm =>
    exact .notify cb e r hr hc ho ht hd (by rw [hs, hr']) (by rw [he, hm])
  | postpone r hr hc hr' hm => exact .postpone r hr hc (by rw [hs, hr']) (by rw [he]; exact hm)
  | lose r c hr hc hi hr' hm => exact .lose r c hr hc hi (by rw [hs, hr']) (by rw [he]; exact hm)
  | free r hr hr' hm => exact .free r hr (by rw [hs, hr']) (by rw [he]; exact hm)

lemma Quiet.trans_treats {h : Handle} {t : Treatment κ} {s s₁ s' : Site κ} (hq : s.Quiet s₁)
    (hn : s₁.network = s.network) (ht : Treats h t s₁ s') : Treats h t s s' := by
  obtain ⟨htu', hcourse⟩ := ht
  refine ⟨htu'.trans hq.turns, ?_⟩
  obtain ⟨htu, hs, he⟩ := hq
  have hnow : s₁.now = s.now := congrArg Network.clock hn
  cases hcourse with
  | spare hr hm => exact .spare (by rw [hr, hs]) (by rw [hm, he])
  | touch r hr hc hr' hm => exact .touch r (hs ▸ hr) hc (by rw [hr', hnow]) (by rw [hm, he])
  | claim c hr hr' hm => exact .claim c (hs ▸ hr) (by rw [hr', hnow]) (by rw [hm, he])
  | arm want cb r hr hr' hw hm => exact .arm want cb r (hs ▸ hr) hr' hw (by rw [hm, he])
  | notify cb e r hr hc ho ht hd hr' hm =>
    exact .notify cb e r (hs ▸ hr) hc ho (htu ▸ ht) (hn ▸ hd) (by rw [hr', htu]) (by rw [hm, he])
  | postpone r hr hc hr' hm => exact .postpone r (hs ▸ hr) hc hr' hm
  | lose r c hr hc hi hr' hm => exact .lose r c (hs ▸ hr) hc hi hr' hm
  | free r hr hr' hm => exact .free r (hs ▸ hr) hr' (by rw [← he]; exact hm)

/-! ### Calls -/

lemma quiet_note (s : Site κ) (n : Note) : s.Quiet (s.note n) := ⟨rfl, rfl, rfl⟩

lemma quiet_abort (s : Site κ) (c : SocketId) : s.Quiet (s.abort c) := by
  rw [abort]
  split <;> exact ⟨rfl, rfl, rfl⟩

lemma quiet_aborts (cs : List SocketId) (s : Site κ) : s.Quiet (cs.foldl abort s) := by
  induction cs generalizing s with
  | nil => exact .refl s
  | cons c cs ih => exact (s.quiet_abort c).trans (ih _)

lemma quiet_openListener (s : Site κ) (callback : κ) : s.Quiet (s.openListener callback).2 := by
  rw [openListener]
  dsimp only
  split
  · exact .refl s
  · split <;> exact ⟨rfl, rfl, rfl⟩

lemma quiet_closeListener (s : Site κ) : s.Quiet s.closeListener := by
  rw [closeListener]
  split
  · exact .refl s
  · next l hl =>
    let s₁ : Site κ := { s with
      network := s.network.closeListener l.socket
      manager := { s.manager with listener := none, backlog := [] } }
    have h₁ : s.Quiet s₁ := ⟨rfl, rfl, rfl⟩
    have h₂ := h₁.trans (quiet_aborts s.manager.backlog.sockets s₁)
    exact h₂.trans ⟨rfl, rfl, rfl⟩

lemma quiet_write (s : Site κ) (h : Handle) (bytes : Bytes) : s.Quiet (s.write h bytes).2 := by
  rw [write]
  split
  · exact ⟨rfl, rfl, rfl⟩
  · split
    · exact .refl s
    · dsimp only
      split
      · exact .refl s
      · exact ⟨rfl, rfl, rfl⟩

lemma quiet_enter (s : Site κ) : s.Quiet s.enter := ⟨rfl, rfl, rfl⟩

lemma quiet_called (s : Site κ) (n : Option (Notice κ)) : s.Quiet (n.elim s fun _ => s.enter) := by
  cases n with
  | none => exact .refl s
  | some n => exact s.quiet_enter

lemma quiet_leave (s : Site κ) : s.Quiet s.leave := by
  rw [leave]
  dsimp only
  split <;> exact ⟨rfl, rfl, rfl⟩

lemma quiet_flush (s : Site κ) : s.Quiet s.flush := ⟨rfl, rfl, rfl⟩

lemma treats_accept (s : Site κ) (hs : s.manager.streams.Sound) (h : Handle) :
    s.accept.1 ≠ some h ∧ Treats h .spare s s.accept.2 ∨
      s.accept.1 = some h ∧ Treats h .claim s s.accept.2 := by
  rw [accept]
  dsimp only
  split
  · exact .inl ⟨by simp, (s.quiet_note _).treats h⟩
  · split
    · exact .inl ⟨by simp, (Quiet.refl s).treats h⟩
    · next p b hb =>
      have hget := Arena.get?_insert hs (.claimed p.socket s.now) h
      have hnone := Arena.get?_insert_self_eq_none hs (.claimed p.socket s.now)
      by_cases hx : (s.manager.streams.insert (.claimed p.socket s.now)).1 = h
      · rw [if_pos hx] at hget
        rw [hx] at hnone
        exact .inr ⟨congrArg some hx, rfl, .claim p.socket hnone hget .rfl⟩
      · rw [if_neg hx] at hget
        exact .inl ⟨fun he => hx (Option.some.inj he), rfl, .spare hget .rfl⟩

lemma treats_close (s : Site κ) (g h : Handle) :
    (g ≠ h ∨ s.manager.streams.get? h = none) ∧ Treats h .spare s (s.close g) ∨
      g = h ∧ Treats h .free s (s.close g) := by
  rw [close]
  dsimp only
  split
  · next hn =>
    by_cases hg : g = h
    · exact .inl ⟨.inr (hg ▸ hn), (s.quiet_note _).treats h⟩
    · exact .inl ⟨.inl hg, (s.quiet_note _).treats h⟩
  · next r hr =>
    have hget := Arena.get?_remove s.manager.streams g h
    split
    · next c hc =>
      let s₁ := s.put { s.manager with
        streams := s.manager.streams.remove g
        sockets := s.manager.sockets.erase c
        active := s.manager.active - 1
        stagger := s.manager.stagger.closed s.now }
      have hq : (s₁.abort c).Quiet (((s₁.abort c).note (.streamClosed g c
        (s₁.abort c).manager.active)).recordOccupancy) := ⟨rfl, rfl, rfl⟩
      have hq := (s₁.quiet_abort c).trans hq
      by_cases hg : g = h
      · subst hg
        rw [if_pos rfl] at hget
        have hfree : Treats g .free s s₁ := ⟨rfl, .free r hr hget fun he => ⟨he, by simp [hc]⟩⟩
        exact .inr ⟨rfl, hfree.trans_quiet hq⟩
      · rw [if_neg hg] at hget
        have hspare : Treats h .spare s s₁ := ⟨rfl, .spare hget .rfl⟩
        exact .inl ⟨.inl hg, hspare.trans_quiet hq⟩
    · next hc =>
      by_cases hg : g = h
      · subst hg
        rw [if_pos rfl] at hget
        refine .inr ⟨rfl, rfl, .free r hr hget fun he => ?_⟩
        simp [recordOccupancy, count, note, put, Manager.unscheduleEnd] at he
      · rw [if_neg hg] at hget
        refine .inl ⟨.inl hg, rfl, .spare hget ?_⟩
        simp [recordOccupancy, count, note, put, Manager.unscheduleEnd, Ne.symm hg]

lemma mem_scheduleEnd (m : Manager κ) (g h : Handle) :
    h ∈ (m.scheduleEnd g).ending ↔ h ∈ m.ending ∨ h = g := by
  rw [Manager.scheduleEnd]
  split
  · next hg =>
    have hg' : g ∈ m.ending := by simpa using hg
    constructor
    · exact .inl
    · rintro (hh | rfl) <;> assumption
  · simp

lemma scheduleEnd_frame (m : Manager κ) (g : Handle) :
    (m.scheduleEnd g).streams = m.streams ∧ (m.scheduleEnd g).turns = m.turns := by
  rw [Manager.scheduleEnd]
  split <;> exact ⟨rfl, rfl⟩

lemma treats_arm (s : Site κ) (g h : Handle) (want : Interests) (callback : Option κ) :
    (g ≠ h ∨ s.manager.streams.get? h = none) ∧ Treats h .spare s (s.arm g want callback).2 ∨
      g = h ∧ (s.arm g want callback).1 = .ok () ∧
        (Treats h (.arm want callback) s (s.arm g want callback).2 ∨
          want.isEmpty = true ∧ Treats h .free s (s.arm g want callback).2) := by
  rw [arm]
  split
  · next hn =>
    refine .inl ⟨?_, (s.quiet_note _).treats h⟩
    by_cases hg : g = h
    · exact .inr (hg ▸ hn)
    · exact .inl hg
  · next r hr =>
    have hget := Arena.get?_update s.manager.streams g h (·.arm want callback)
    dsimp only
    by_cases hg : g = h
    · subst hg
      rw [if_pos rfl, hr, Option.map_some] at hget
      right
      split
      · next hc =>
        have hc' : r.socket ≠ none := Option.isSome_iff_ne_none.mp hc
        exact ⟨rfl, rfl, .inl ⟨rfl, .arm want callback r hr hget (fun hn => absurd hn hc')
          (by simp [hc', put, Manager.updateStream])⟩⟩
      · next hc =>
        have hc' : r.socket = none := by simpa using hc
        split
        · next hw =>
          have hcont : (s.manager.streams.update g (·.arm want callback)).contains g = true := by
            simp [Arena.contains, hget]
          refine ⟨rfl, rfl, .inr ⟨hw, ?_, .free r hr ?_ fun he => ?_⟩⟩
          all_goals
            simp only [releaseOrphan, put, Manager.updateStream, hcont, if_true, note,
              Manager.unscheduleEnd] at *
          · rw [Arena.get?_remove, if_pos rfl]
          · simp at he
        · next hw =>
          obtain ⟨hst, htu⟩ := scheduleEnd_frame (s.manager.updateStream g (·.arm want callback)) g
          refine ⟨rfl, rfl, .inl ⟨htu, .arm want callback r hr ?_ (fun _ => by simpa using hw) ?_⟩⟩
          · exact (congrArg (Arena.get? · g) hst).trans hget
          · exact (mem_scheduleEnd _ g g).trans (by simp [hc'])
    · rw [if_neg hg] at hget
      refine .inl ⟨.inl hg, ?_⟩
      split
      · exact ⟨rfl, .spare hget .rfl⟩
      · split
        · have h₁ : Treats h .spare s (s.put (s.manager.updateStream g (·.arm want callback))) :=
            ⟨rfl, .spare hget .rfl⟩
          rw [releaseOrphan]
          split
          · refine ⟨rfl, .spare ?_ ?_⟩
            · exact (Arena.get?_remove _ g h).trans ((if_neg hg).trans hget)
            · simp [note, put, Manager.unscheduleEnd, Manager.updateStream, Ne.symm hg]
          · exact h₁
        · obtain ⟨hst, htu⟩ := scheduleEnd_frame (s.manager.updateStream g (·.arm want callback)) g
          refine ⟨htu, .spare ((congrArg (Arena.get? · h) hst).trans hget) ?_⟩
          exact (mem_scheduleEnd _ g h).trans (by simp [Ne.symm hg, Manager.updateStream, put])

lemma treats_read (s : Site κ) (g h : Handle) (k : Nat) :
    Treats h .spare s (s.read g k).2 ∨ g = h ∧ Treats h .touch s (s.read g k).2 := by
  rw [read]
  split
  · exact .inl ((s.quiet_note _).treats h)
  · next r hr =>
    split
    · exact .inl ((Quiet.refl s).treats h)
    · next c hc =>
      split
      · exact .inl ((Quiet.refl s).treats h)
      · have hget := Arena.get?_update s.manager.streams g h fun r => { r with lastActivity := s.now }
        by_cases hg : g = h
        · subst hg
          rw [if_pos rfl, hr, Option.map_some] at hget
          exact .inr ⟨rfl, rfl, .touch r hr (by simp [hc]) hget .rfl⟩
        · rw [if_neg hg] at hget
          exact .inl ⟨rfl, .spare hget .rfl⟩

/-! ### Jobs of a turn -/

lemma detach_frame {s : Site κ} {g : Handle} {r : Stream κ} {c : SocketId} (abortive : Bool)
    (hr : s.manager.streams.get? g = some r) (hc : r.socket = some c) :
    (s.detach g abortive).manager.turns = s.manager.turns ∧
      (∀ h, (s.detach g abortive).manager.streams.get? h = if g = h then
        (if r.interests.isEmpty then none else some { r with socket := none })
        else s.manager.streams.get? h) ∧
      ∀ h, h ∈ (s.detach g abortive).manager.ending ↔
        h ∈ s.manager.ending ∨ r.interests.isEmpty = false ∧ h = g := by
  let s₁ : Site κ := s.put { s.manager.updateStream g fun r => { r with socket := none } with
    sockets := s.manager.sockets.erase c
    active := s.manager.active - 1
    stagger := s.manager.stagger.closed s.now }
  have hq : s₁.Quiet (if abortive then s₁.abort c else s₁) := by
    split
    · exact s₁.quiet_abort c
    · exact .refl s₁
  have hget := fun h => Arena.get?_update s.manager.streams g h fun r => { r with socket := none }
  rw [detach]
  simp only [hr, hc]
  cases hi : r.interests.isEmpty with
  | true =>
    refine ⟨hq.turns, fun h => ?_, fun h => ?_⟩
    · refine ((congrArg (fun a => (a.remove g).get? h) hq.streams).trans
        (Arena.get?_remove _ g h)).trans ?_
      simp only [if_true]
      split
      · rfl
      · next hg => exact (hget h).trans (if_neg hg)
    · exact (iff_of_eq (congrArg (h ∈ ·) hq.ending)).trans (by simp [s₁, put, Manager.updateStream])
  | false =>
    obtain ⟨hst, htu⟩ := scheduleEnd_frame (κ := κ) { (if abortive then s₁.abort c else s₁).manager with
      totals := { (if abortive then s₁.abort c else s₁).manager.totals with
        orphaned := (if abortive then s₁.abort c else s₁).manager.totals.orphaned + 1 } } g
    refine ⟨htu.trans hq.turns, fun h => ?_, fun h => ?_⟩
    · refine (congrArg (Arena.get? · h) (hst.trans hq.streams)).trans ((hget h).trans ?_)
      split
      · next hg => rw [← hg, hr]; rfl
      · rfl
    · refine (mem_scheduleEnd _ g h).trans (or_congr (iff_of_eq (congrArg (h ∈ ·) hq.ending)) ?_)
      simp

lemma treats_detach {s : Site κ} {g : Handle} {r : Stream κ} {c : SocketId} (abortive : Bool)
    (hr : s.manager.streams.get? g = some r) (hc : r.socket = some c) (h : Handle) :
    Treats h .spare s (s.detach g abortive) ∨ g = h ∧
      (Treats h .lose s (s.detach g abortive) ∨
        r.interests.isEmpty = true ∧ Treats h .free s (s.detach g abortive)) := by
  obtain ⟨htu, hget, hen⟩ := detach_frame abortive hr hc
  by_cases hg : g = h
  · subst hg
    have hget := (hget g).trans (if_pos rfl)
    refine .inr ⟨rfl, ?_⟩
    cases hi : r.interests.isEmpty with
    | true =>
      rw [if_pos hi] at hget
      refine .inr ⟨rfl, htu, .free r hr hget fun he => ?_⟩
      rw [hen, hi] at he
      exact ⟨by simpa using he, by simp [hc]⟩
    | false =>
      rw [hi] at hget
      exact .inl ⟨htu, .lose r c hr hc hi hget ((hen g).mpr (.inr ⟨hi, rfl⟩))⟩
  · refine .inl ⟨htu, .spare ((hget h).trans (if_neg hg)) ((hen h).trans ?_)⟩
    simp [Ne.symm hg]

/-- The stream under `h` is spared, or it loses a socket that the event `e` takes from it. -/
def Costs (h : Handle) (e : SocketEvent) (s s' : Site κ) : Prop :=
  Treats h .spare s s' ∨ ∃ r c abortive, s.manager.streams.get? h = some r ∧ r.socket = some c ∧
    e.Costs c abortive ∧ (Treats h .lose s s' ∨ r.interests.isEmpty = true ∧ Treats h .free s s')

lemma Costs.trans_quiet {h : Handle} {e : SocketEvent} {s s₁ s' : Site κ} (hl : Costs h e s s₁)
    (hq : s₁.Quiet s') : Costs h e s s' := by
  rcases hl with ht | ⟨r, c, abortive, hr, hc, he, ht⟩
  · exact .inl (ht.trans_quiet hq)
  · exact .inr ⟨r, c, abortive, hr, hc, he, ht.imp (·.trans_quiet hq) fun ht => ⟨ht.1, ht.2.trans_quiet hq⟩⟩

lemma Quiet.trans_costs {h : Handle} {e : SocketEvent} {s s₁ s' : Site κ} (hq : s.Quiet s₁)
    (hn : s₁.network = s.network) (hl : Costs h e s₁ s') : Costs h e s s' := by
  rcases hl with ht | ⟨r, c, abortive, hr, hc, he, ht⟩
  · exact .inl (hq.trans_treats hn ht)
  · exact .inr ⟨r, c, abortive, hq.streams ▸ hr, hc, he,
      ht.imp (hq.trans_treats hn) fun ht => ⟨ht.1, hq.trans_treats hn ht.2⟩⟩

lemma costs_detach {s : Site κ} {g : Handle} {r : Stream κ} {c : SocketId} (abortive : Bool)
    {e : SocketEvent} (hr : s.manager.streams.get? g = some r) (hc : r.socket = some c)
    (he : e.Costs c abortive) (h : Handle) : Costs h e s (s.detach g abortive) := by
  rcases treats_detach abortive hr hc h with ht | ⟨rfl, ht⟩
  · exact .inl ht
  · exact .inr ⟨r, c, abortive, hr, hc, he, ht⟩

lemma costs_evict (s : Site κ) {e : SocketEvent} {d : SocketId} (he : e.accepted? = some d)
    (h : Handle) : Costs h e s s.evict.2 := by
  rw [evict]
  dsimp only
  split
  · exact .inl ((Quiet.refl s).treats h)
  · split
    · exact .inl ((s.quiet_note _).treats h)
    · next v hv =>
      obtain ⟨hv, -⟩ := Option.filter_eq_some_iff.mp hv
      obtain ⟨r, hr, hs, -⟩ := (mem_candidates_iff _ _).mp (Candidate.mem_of_oldest? hv)
      obtain ⟨c, hc⟩ := Option.isSome_iff_exists.mp hs
      let s₁ := ((s.note (.evicted v.stream (v.idleTime s.now))).put { s.manager with
        totals := { s.manager.totals with evicted := s.manager.totals.evicted + 1 } }).count
          (·.countEvicted)
      have h₁ : s.Quiet s₁ := ⟨rfl, rfl, rfl⟩
      exact h₁.trans_costs rfl (costs_detach (s := s₁) true hr hc ⟨d, he⟩ h)

lemma costs_judge (s : Site κ) {e : SocketEvent} {d : SocketId} (he : e.accepted? = some d)
    (h : Handle) : Costs h e s s.judge.2 := by
  have hev := s.costs_evict he h
  rw [judge]
  split
  · split <;> next s₁ hs₁ => rwa [hs₁] at hev
  · exact .inl ((Quiet.refl s).treats h)

lemma costs_onAccepted (s : Site κ) (c l : SocketId) (h : Handle) :
    Costs h ⟨c, .accepted l⟩ s (s.onAccepted c l) := by
  rw [onAccepted]
  split
  · exact .inl (((s.quiet_note _).trans (quiet_abort _ c)).treats h)
  · have hj := s.costs_judge (e := ⟨c, .accepted l⟩) rfl h
    split
    · next s₁ hs₁ =>
      rw [hs₁] at hj
      exact hj.trans_quiet ⟨rfl, rfl, rfl⟩
    · next reason s₁ hs₁ =>
      rw [hs₁] at hj
      let s₂ := ((s₁.put { s₁.manager with totals :=
        { s₁.manager.totals with rejected := s₁.manager.totals.rejected + 1 } }).count
          (·.countRefused reason)).note (.refused c reason)
      have hq : s₁.Quiet s₂ := ⟨rfl, rfl, rfl⟩
      exact hj.trans_quiet ((hq.trans (s₂.quiet_abort c)).trans ⟨rfl, rfl, rfl⟩)

lemma costs_onClosed {s : Site κ} {c : SocketId} (hl : ∀ g, s.manager.sockets.get? c = some g →
    ∃ r, s.manager.streams.get? g = some r ∧ r.socket = some c) (h : Handle) :
    Costs h ⟨c, .closed⟩ s (s.onClosed c) := by
  rw [onClosed]
  split
  · let s₁ := s.put { s.manager with backlog := s.manager.backlog.withdraw c }
    have hq : s.Quiet (s₁.note (.pendingClosed c)).recordOccupancy := ⟨rfl, rfl, rfl⟩
    exact .inl (hq.treats h)
  · split
    · next g hg =>
      obtain ⟨r, hr, hc⟩ := hl g hg
      exact (s.quiet_note (.peerClosed g c)).trans_costs rfl
        (costs_detach (s := s.note (.peerClosed g c)) false hr hc rfl h)
    · exact .inl ((Quiet.refl s).treats h)

/-- The job ends with `n`, which tells of the stream under `h` if that is notified, and otherwise of
another one or of none. -/
def Tells (h : Handle) (s s' : Site κ) (n : Option (Notice κ)) : Prop :=
  (∀ cb e, n ≠ some (.event cb h e)) ∧ Treats h .spare s s' ∨
    ∃ cb e, n = some (.event cb h e) ∧ Treats h (.notify cb e) s s'

lemma Quiet.tells {s s' : Site κ} (hq : s.Quiet s') (h : Handle) : Tells h s s' none :=
  .inl ⟨by simp, hq.treats h⟩

lemma treats_notify {s t : Site κ} {g : Handle} {r : Stream κ} {cb : κ} {e : StreamEvent}
    (hr : s.manager.streams.get? g = some r) (hc : r.callback = some cb)
    (ho : r.readiness.outstanding = none) (ht : r.notifiedTurn ≠ some s.manager.turns)
    (hd : r.due? s.network = some e)
    (hst : t.manager.streams = s.manager.streams.update g fun r' =>
      { r' with readiness := ⟨r.interests, some e⟩ })
    (htu : t.manager.turns = s.manager.turns) (hen : t.manager.ending = s.manager.ending)
    (h : Handle) : Tells h s (t.notify g cb e).1 (t.notify g cb e).2 := by
  have hget := Arena.get?_update s.manager.streams g h fun r' =>
      { r' with readiness := ⟨r.interests, some e⟩ }
  have hget' := Arena.get?_update t.manager.streams g h fun r =>
      { r with notifiedTurn := some t.manager.turns }
  rw [hst, hget] at hget'
  rw [notify]
  by_cases hg : g = h
  · subst hg
    refine .inr ⟨cb, e, rfl, htu, .notify cb e r hr hc ho ht hd ?_ (iff_of_eq (congrArg (g ∈ ·) hen))⟩
    rw [if_pos rfl, if_pos rfl, hr, ← hst] at hget'
    rw [← htu]
    exact hget'
  · refine .inl ⟨fun cb' e' he => ?_, htu, .spare ?_ (iff_of_eq (congrArg (h ∈ ·) hen))⟩
    · cases he
      exact hg rfl
    · rw [if_neg hg, if_neg hg, ← hst] at hget'
      exact hget'

lemma dueAtEnd?_eq_none_iff {i : Interests} :
    Readiness.dueAtEnd? i = none ↔ i.isEmpty = true := by
  obtain ⟨readable, writable⟩ := i
  cases readable <;> cases writable <;> simp [Readiness.dueAtEnd?, Interests.isEmpty]

lemma give_eq {r q : Readiness} {due : Option StreamEvent} {e : StreamEvent}
    (h : r.give due = (some e, q)) :
    r.outstanding = none ∧ due = some e ∧ q = ⟨r.interests, some e⟩ := by
  obtain ⟨interests, outstanding⟩ := r
  cases outstanding with
  | some d => cases h
  | none =>
    cases due with
    | none => cases h
    | some d =>
      cases h
      exact ⟨rfl, rfl, rfl⟩

lemma tells_evaluate (s : Site κ) (g h : Handle) : Tells h s (s.evaluate g).1 (s.evaluate g).2 := by
  have hsame : Tells h s s none := (Quiet.refl s).tells h
  rw [evaluate]
  split
  · exact hsame
  · next r hr =>
    split
    · next c cb hc hcb =>
      split
      · exact hsame
      · next ht =>
        split
        · exact hsame
        · next e q hp =>
          obtain ⟨ho, hd, rfl⟩ := give_eq hp
          let t := s.put (s.manager.updateStream g fun r' =>
            { r' with readiness := ⟨r.interests, some e⟩ })
          have hd' : r.due? s.network = some e := by rw [Stream.due?, hc]; exact hd
          exact treats_notify (t := t) hr hcb ho ht hd' rfl rfl rfl h
    · exact hsame

lemma treats_deliverEnd (s : Site κ) (g h : Handle) :
    Tells h s (s.deliverEnd g).1 (s.deliverEnd g).2 ∧
        (g = h → ∀ r, s.manager.streams.get? h = some r → r.Mourned →
          ∃ cb e, (s.deliverEnd g).2 = some (.event cb h e)) ∨
      g = h ∧ (s.deliverEnd g).2 = none ∧ (∃ r, s.manager.streams.get? h = some r ∧
        r.notifiedTurn = some s.manager.turns) ∧ Treats h .postpone s (s.deliverEnd g).1 := by
  have hsame : Tells h s s none := (Quiet.refl s).tells h
  rw [deliverEnd]
  split
  · next hn =>
    refine .inl ⟨hsame, ?_⟩
    rintro rfl r hr
    rw [hn] at hr
    cases hr
  · next r hr =>
    split
    · next cb hc hcb =>
      split
      · next ht =>
        by_cases hg : g = h
        · subst hg
          refine .inr ⟨rfl, rfl, ⟨r, hr, ht⟩, rfl, .postpone r hr hc hr ?_⟩
          exact List.mem_append_right _ (List.mem_singleton_self g)
        · refine .inl ⟨.inl ⟨by simp, rfl, .spare rfl ?_⟩, fun he => absurd he hg⟩
          simp [put, Ne.symm hg]
      · next ht =>
        split
        · next hp =>
          refine .inl ⟨hsame, ?_⟩
          rintro rfl r' hr' hm
          rw [hr] at hr'
          cases hr'
          have hfst := congrArg Prod.fst hp
          rw [Readiness.pollEnd, Readiness.give_fst, hm.outstanding] at hfst
          have hempty := dueAtEnd?_eq_none_iff.mp hfst
          have hwanted : r.readiness.interests.isEmpty = false := hm.wanted
          rw [hempty] at hwanted
          cases hwanted
        · next e q hp =>
          obtain ⟨ho, hd, rfl⟩ := give_eq hp
          let t := (s.put (s.manager.updateStream g fun r' =>
            { r' with readiness := ⟨r.interests, some e⟩ })).note (.ended g e)
          have hd' : r.due? s.network = some e := by rw [Stream.due?, hc]; exact hd
          refine .inl ⟨treats_notify (t := t) hr hcb ho ht hd' rfl rfl rfl h, ?_⟩
          rintro rfl r' - -
          exact ⟨cb, e, rfl⟩
    · next hno =>
      refine .inl ⟨hsame, ?_⟩
      rintro rfl r' hr' hm
      rw [hr] at hr'
      cases hr'
      obtain ⟨cb, hcb⟩ := Option.isSome_iff_exists.mp hm.callback
      exact absurd hcb (hno cb hm.socket)

lemma treats_offerPending (s : Site κ) (h : Handle) :
    Tells h s s.offerPending.1 s.offerPending.2 := by
  have hsame : Tells h s s none := (Quiet.refl s).tells h
  rw [offerPending]
  dsimp only
  split
  · exact hsame
  · split
    · split
      · exact hsame
      · exact .inl ⟨by simp, rfl, .spare rfl .rfl⟩
    · exact hsame

end Site

namespace Call

variable {κ : Type}

/-- Whether the call arms or closes the stream under `h`. -/
def settles (h : Handle) : Call Handle κ → Bool
  | .close k | .arm k _ _ => k = h
  | _ => false

/-- How a call with its reply treats the stream under `h`. -/
inductive Brings (s : Site κ) (h : Handle) : Call Handle κ → Reply → Treatment κ → Prop where
  | spare (c : Call Handle κ) (reply : Reply)
      (hc : c.settles h = true → s.manager.streams.get? h = none)
      (hr : reply ≠ .claimed (some h)) : Brings s h c reply .spare
  | touch (k : Nat) (reply : Reply) : Brings s h (.read h k) reply .touch
  | claim : Brings s h .accept (.claimed (some h)) .claim
  | arm (want : Interests) (callback : Option κ) :
      Brings s h (.arm h want callback) (.armed (.ok ())) (.arm want callback)
  | dismiss (want : Interests) (callback : Option κ) :
      Brings s h (.arm h want callback) (.armed (.ok ())) .free
  | close : Brings s h (.close h) .done .free

lemma treats {s : Site κ} (hs : s.manager.streams.Sound) (c : Call Handle κ) (h : Handle) :
    ∃ t, Brings s h c (c.perform s).1 t ∧ Site.Treats h t s (c.perform s).2 := by
  have hspare : c.settles h = false → (∀ g, (c.perform s).1 ≠ .claimed g) →
      Site.Treats h .spare s (c.perform s).2 →
      ∃ t, Brings s h c (c.perform s).1 t ∧ Site.Treats h t s (c.perform s).2 :=
    fun hc hr ht => ⟨.spare, .spare c _ (by simp [hc]) (hr _), ht⟩
  cases c with
  | openListener callback => exact hspare rfl (by simp [perform]) ((s.quiet_openListener callback).treats h)
  | closeListener => exact hspare rfl (by simp [perform]) (s.quiet_closeListener.treats h)
  | port | state g | stats => exact hspare rfl (by simp [perform]) ((Site.Quiet.refl s).treats h)
  | closeOutput g => exact hspare rfl (by simp [perform]) ((s.quiet_note _).treats h)
  | write g bytes => exact hspare rfl (by simp [perform]) ((s.quiet_write g bytes).treats h)
  | accept =>
    rcases s.treats_accept (h := h) hs with ⟨hne, ht⟩ | ⟨heq, ht⟩
    · refine ⟨.spare, .spare _ _ (by simp [settles]) fun he => hne ?_, ht⟩
      exact Reply.claimed.inj he
    · have hreply : ((Call.accept : Call Handle κ).perform s).1 = .claimed (some h) :=
        congrArg Reply.claimed heq
      rw [hreply]
      exact ⟨.claim, .claim, ht⟩
  | close g =>
    rcases s.treats_close g h with ⟨hg, ht⟩ | ⟨rfl, ht⟩
    · refine ⟨.spare, .spare _ _ (fun hc => hg.resolve_left ?_) (by simp [perform]), ht⟩
      simpa [settles] using hc
    · exact ⟨.free, .close, ht⟩
  | arm g want callback =>
    rcases s.treats_arm g h want callback with ⟨hg, ht⟩ | ⟨rfl, hok, ht⟩
    · refine ⟨.spare, .spare _ _ (fun hc => hg.resolve_left ?_) (by simp [perform]), ht⟩
      simpa [settles] using hc
    · have hreply : ((Call.arm g want callback).perform s).1 = .armed (.ok ()) :=
        congrArg Reply.armed hok
      rw [hreply]
      rcases ht with ht | ⟨-, ht⟩
      · exact ⟨_, .arm want callback, ht⟩
      · exact ⟨_, .dismiss want callback, ht⟩
  | read g k =>
    rcases s.treats_read g h k with ht | ⟨rfl, ht⟩
    · exact hspare rfl (by simp [perform]) ht
    · exact ⟨.touch, .touch k _, ht⟩

end Call

namespace Agenda

variable {κ : Type}

/-- How the next job of a turn, which ends with a notice or without, treats the stream under `h`. -/
inductive Brings (s : Site κ) (h : Handle) : Agenda → Option (Notice κ) → Treatment κ → Prop where
  | spare (a : Agenda) (n : Option (Notice κ)) (hn : ∀ cb e, n ≠ some (.event cb h e))
      (hm : ∀ hs r, a = .ends (h :: hs) → s.manager.streams.get? h = some r → ¬ r.Mourned) :
      Brings s h a n .spare
  | notify (a : Agenda) (cb : κ) (e : StreamEvent) :
      Brings s h a (some (.event cb h e)) (.notify cb e)
  | postpone (hs : List Handle) (r : Stream κ) (hr : s.manager.streams.get? h = some r)
      (ht : r.notifiedTurn = some s.manager.turns) : Brings s h (.ends (h :: hs)) none .postpone
  | lose (e : SocketEvent) (es : List SocketEvent) (r : Stream κ) (c : SocketId) (abortive : Bool)
      (hr : s.manager.streams.get? h = some r) (hc : r.socket = some c) (he : e.Costs c abortive) :
      Brings s h (.events (e :: es)) none .lose
  | free (e : SocketEvent) (es : List SocketEvent) (r : Stream κ) (c : SocketId) (abortive : Bool)
      (hr : s.manager.streams.get? h = some r) (hc : r.socket = some c) (he : e.Costs c abortive)
      (hi : r.interests.isEmpty = true) : Brings s h (.events (e :: es)) none .free

lemma Brings.costs {s : Site κ} {h : Handle} {a : Agenda} {n : Option (Notice κ)} {t : Treatment κ}
    (hb : Brings s h a n t) (ht : t = .lose ∨ t = .free) : ∃ e es r c abortive,
      a = .events (e :: es) ∧ s.manager.streams.get? h = some r ∧ r.socket = some c ∧
        e.Costs c abortive := by
  rcases ht with rfl | rfl
  · cases hb with
    | lose e es r c abortive hr hc he => exact ⟨e, es, r, c, abortive, rfl, hr, hc, he⟩
  · cases hb with
    | free e es r c abortive hr hc he hi => exact ⟨e, es, r, c, abortive, rfl, hr, hc, he⟩

lemma brings_of_tells {s : Site κ} {h : Handle} {a : Agenda} {s' : Site κ} {n : Option (Notice κ)}
    (ht : s.Tells h s' n) (hm : ∀ hs r, a = .ends (h :: hs) → s.manager.streams.get? h = some r →
      r.Mourned → ∃ cb e, n = some (.event cb h e)) : ∃ t, Brings s h a n t ∧ Site.Treats h t s s' := by
  rcases ht with ⟨hn, ht⟩ | ⟨cb, e, rfl, ht⟩
  · refine ⟨.spare, .spare a n hn fun hs r ha hr hmourned => ?_, ht⟩
    obtain ⟨cb, e, he⟩ := hm hs r ha hr hmourned
    exact hn cb e he
  · exact ⟨_, .notify a cb e, ht⟩

lemma brings_of_costs {s s' : Site κ} {h : Handle} {e : SocketEvent} (es : List SocketEvent)
    (ht : Site.Costs h e s s') : ∃ t, Brings s h (.events (e :: es)) none t ∧ Site.Treats h t s s' := by
  rcases ht with ht | ⟨r, c, abortive, hr, hc, he, ht | ⟨hi, ht⟩⟩
  · exact ⟨.spare, .spare _ _ (by simp) (by simp), ht⟩
  · exact ⟨.lose, .lose e es r c abortive hr hc he, ht⟩
  · exact ⟨.free, .free e es r c abortive hr hc he hi, ht⟩

lemma treats_handle {s : Site κ} {e : SocketEvent} (es : List SocketEvent)
    (hl : ∀ g, s.manager.sockets.get? e.socket = some g →
      ∃ r, s.manager.streams.get? g = some r ∧ r.socket = some e.socket) (h : Handle) :
    ∃ t, Brings s h (.events (e :: es)) (s.handle e).2 t ∧ Site.Treats h t s (s.handle e).1 := by
  obtain ⟨c, k⟩ := e
  rw [Site.handle]
  cases k with
  | accepted l => exact brings_of_costs es (s.costs_onAccepted c l h)
  | closed => exact brings_of_costs es (Site.costs_onClosed hl h)
  | received | sent | timer | poll =>
    dsimp only
    split
    · next g _ => exact brings_of_tells (s.tells_evaluate g h) (by simp)
    · exact ⟨.spare, .spare _ _ (by simp) (by simp), (Site.Quiet.refl s).treats h⟩

lemma treats {s : Site κ} (hs : s.manager.Coherent) {a : Agenda} (ha : a ≠ .events []) (h : Handle) :
    ∃ t, Brings s h a (a.next s).2.2 t ∧ Site.Treats h t s (a.next s).2.1 := by
  cases a with
  | events es =>
    cases es with
    | nil => exact absurd rfl ha
    | cons e es => exact treats_handle es (hs.record e.socket) h
  | ends hs =>
    cases hs with
    | nil => exact brings_of_tells (s.treats_offerPending h) (by simp)
    | cons g hs =>
      rcases s.treats_deliverEnd g h with ⟨ht, hm⟩ | ⟨rfl, hn, ⟨r, hr, hr'⟩, ht⟩
      · refine brings_of_tells ht fun hs' r he => ?_
        cases he
        exact hm rfl r
      · refine ⟨.postpone, ?_, ht⟩
        simp only [next, hn]
        exact .postpone hs r hr hr'
  | flush => exact ⟨.spare, .spare _ _ (by simp [next]) (by simp), s.quiet_flush.treats h⟩

end Agenda

end BoundedStreams
