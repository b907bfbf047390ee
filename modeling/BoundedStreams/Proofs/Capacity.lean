import BoundedStreams.Proofs.Ledger

/-! A manager never holds more connections than it has room for. -/

namespace BoundedStreams

namespace Manager

variable {κ : Type}

/-- Claimed, pending and given-up connections together fit the capacity, and nothing waits to be closed
outside a callback. -/
structure Within (m : Manager κ) : Prop where
  load : m.active + m.backlog.length + m.deferred.length ≤ m.options.capacity
  pending : m.backlog.length ≤ m.options.maxPending
  settled : m.depth = 0 → m.deferred = []

lemma within_create (o : Options) (ports : PortSource) :
    (create o ports : Manager κ × PortSource).1.Within :=
  ⟨Nat.zero_le _, Nat.zero_le _, fun _ => rfl⟩

end Manager

namespace Site

variable {κ : Type}

lemma Alike.length_backlog {s s' : Site κ} (h : s.Alike s') :
    s'.manager.backlog.length = s.manager.backlog.length := by
  have hlen := congrArg List.length h.pending
  simpa only [Backlog.sockets, List.length_map] using hlen

lemma Alike.within {s s' : Site κ} (h : s.Alike s') (hw : s.manager.Within) : s'.manager.Within where
  load := by
    rw [h.active, h.length_backlog, h.deferred, h.options]
    exact hw.load
  pending := by
    rw [h.length_backlog, h.options]
    exact hw.pending
  settled := by
    rw [h.depth, h.deferred]
    exact hw.settled

lemma within_abort {s : Site κ} (c : SocketId)
    (hl : s.manager.active + s.manager.backlog.length + s.manager.deferred.length <
      s.manager.options.capacity)
    (hp : s.manager.backlog.length ≤ s.manager.options.maxPending)
    (hs : s.manager.depth = 0 → s.manager.deferred = []) : (s.abort c).manager.Within := by
  rw [abort]
  split
  · exact ⟨Nat.le_of_lt hl, hp, hs⟩
  · next hd =>
    refine ⟨?_, hp, fun h => absurd h hd⟩
    simp only [put, List.length_append, List.length_singleton]
    omega

lemma within_flush {s : Site κ}
    (hl : s.manager.active + s.manager.backlog.length + s.manager.deferred.length ≤
      s.manager.options.capacity)
    (hp : s.manager.backlog.length ≤ s.manager.options.maxPending) : s.flush.manager.Within := by
  refine ⟨?_, hp, fun _ => rfl⟩
  simp only [flush, List.length_nil]
  omega

lemma Does.within {d : Deed} {s s' : Site κ} (h : Does d s s') (hm : s.manager.Coherent)
    (hw : s.manager.Within) : s'.manager.Within := by
  have hl := hw.load
  have hp := hw.pending
  cases h with
  | keep h => exact h.within hw
  | tend k f hf h => exact h.within ⟨hl, hp, hw.settled⟩
  | enqueue c hd ha h =>
    -- Admission does not look at the deferred aborts, but here there are none.
    have hroom := admission_eq_ok_iff.mp ha
    refine h.within ⟨?_, ?_, hw.settled⟩
    · simp only [put, Backlog.push, List.length_append, List.length_singleton, hw.settled hd,
        List.length_nil]
      omega
    · simp only [put, Backlog.push, List.length_append, List.length_singleton]
      omega
  | withdraw c hc h =>
    have hle : (s.manager.backlog.withdraw c).length ≤ s.manager.backlog.length :=
      (List.eraseP_sublist (l := s.manager.backlog)).length_le
    refine h.within ⟨?_, ?_, hw.settled⟩
    · simp only [put]
      omega
    · simp only [put]
      omega
  | shed p b hb h =>
    rw [hb, List.length_cons] at hl hp
    refine h.within (within_abort _ ?_ ?_ hw.settled)
    · simp only [put]
      omega
    · simp only [put]
      omega
  | refuse c hd h => exact h.within ⟨hl, hp, hw.settled⟩
  | claim k a p b hb hc hi h =>
    rw [hb, List.length_cons] at hl hp
    refine h.within ⟨?_, ?_, hw.settled⟩
    · simp only [put]
      omega
    · simp only [put]
      omega
  | close k r c hr hc h =>
    have hpos := hm.active_pos hr hc
    refine h.within (within_abort _ ?_ hp hw.settled)
    simp only [put]
    omega
  | dismiss k r hr hc h => exact h.within ⟨hl, hp, hw.settled⟩
  | orphan k r c ab hd hr hc hi h =>
    refine h.within ⟨?_, hp, hw.settled⟩
    simp only [detached]
    omega
  | free k r c ab hd hr hc hi h =>
    refine h.within ⟨?_, hp, hw.settled⟩
    simp only [put, detached]
    omega
  | enter h => exact h.within ⟨hl, hp, fun hd => absurd hd (Nat.succ_ne_zero _)⟩
  | leave h =>
    apply h.within
    rw [Site.leave]
    dsimp only
    split
    · exact within_flush hl hp
    · next hd => exact ⟨hl, hp, fun h => absurd h hd⟩
  | flush h => exact h.within (within_flush hl hp)

end Site

namespace Moment

variable {κ : Type}

lemma lasting_within : Lasting (Manager.Within (κ := κ)) where
  create := Manager.within_create
  begin _ hm := ⟨hm.load, hm.pending, hm.settled⟩
  deed _ _ _ hd hm hw := hd.within hm hw

lemma within_run {ports : PortSource} {mvs : List (Move κ)} {es : History κ} {w : Moment κ}
    (hr : (initial ports).run mvs = some (es, w)) {i : Nat} {s : Site κ} (hs : w.site? i = some s) :
    s.manager.Within :=
  lasting_within.run hr (manager?_of_site? hs)

lemma accept_eq_none_iff_of_within {s : Site κ} (hw : s.manager.Within) :
    s.accept.1 = none ↔ s.manager.backlog = [] := by
  rw [s.accept_eq_none_iff]
  constructor
  · rintro (hfull | hb)
    · have hlen : s.manager.backlog.length = 0 := by
        have := hw.load
        omega
      exact List.eq_nil_of_length_eq_zero hlen
    · exact hb
  · exact Or.inr

/-- Claimed, pending and given-up connections never exceed the capacity, so a pending connection can
always be claimed, and the first claim of an answer to an offer succeeds. -/
theorem never_over_capacity {ports : PortSource} {mvs : List (Move κ)} {es : History κ}
    {w : Moment κ} (hr : (initial ports).run mvs = some (es, w)) {i : Nat} {s : Site κ}
    (hs : w.site? i = some s) :
    s.manager.active + s.manager.backlog.length + s.manager.deferred.length ≤
        s.manager.options.capacity ∧
      s.manager.backlog.length ≤ s.manager.options.maxPending ∧
      (s.accept.1 = none ↔ s.manager.backlog = []) ∧
      (s.manager.backlog ≠ [] → s.manager.active < s.manager.options.capacity) ∧
      ∀ mv callback w', w.step mv = some (.notice i (.offer callback), w') →
        ∃ h w'', w'.step (.call i .accept) = some (.call (.claimed (some h)), w'') := by
  have hw := within_run hr hs
  refine ⟨hw.load, hw.pending, accept_eq_none_iff_of_within hw, fun hb => ?_, ?_⟩
  · have hl := hw.load
    have hpos := List.length_pos_iff.mpr hb
    omega
  · intro mv callback w' hstep
    obtain ⟨hact, s', hs', hb⟩ := founded_notice hstep
    have hw' := within_run (run_step hr hstep) hs'
    have hsome : s'.accept.1 ≠ none := fun h => hb ((accept_eq_none_iff_of_within hw').mp h)
    obtain ⟨h, hh⟩ := Option.ne_none_iff_exists'.mp hsome
    refine ⟨h, w'.put i s'.accept.2, ?_⟩
    rw [step_call hact hs', ← hh]
    rfl

theorem never_over_capacity_before_offer : ∃ es w s w' h w'',
    (initial .standard).run (arrival ++ [.begin 0, .proceed, .proceed, .proceed]) = some (es, w) ∧
      w.site? 0 = some s ∧ s.manager.backlog.length = 1 ∧
      s.manager.active + s.manager.backlog.length + s.manager.deferred.length ≤ 1 ∧
      s.accept.1 ≠ none ∧ w.step .proceed = some (.notice 0 (.offer ()), w') ∧
      w'.step (.call 0 .accept) = some (.call (.claimed (some h)), w'') := by
  have hrun : ∃ es w s w',
      (initial .standard).run (arrival ++ [.begin 0, .proceed, .proceed, .proceed]) = some (es, w) ∧
      w.site? 0 = some s ∧ s.manager.backlog.length = 1 ∧ s.manager.options.capacity = 1 ∧
      w.step .proceed = some (.notice 0 (.offer ()), w') :=
    ⟨_, _, _, _, rfl, rfl, rfl, rfl, rfl⟩
  obtain ⟨es, w, s, w', hr, hs, hb, hc, hp⟩ := hrun
  obtain ⟨hload, -, hnone, -, hoffer⟩ := never_over_capacity hr hs
  obtain ⟨h, w'', ha⟩ := hoffer .proceed () w' hp
  have hne : s.manager.backlog ≠ [] := by
    intro he
    rw [he] at hb
    cases hb
  exact ⟨es, w, s, w', h, w'', hr, hs, hb, hc ▸ hload, fun he => hne (hnone.mp he), hp, ha⟩

end Moment

end BoundedStreams
