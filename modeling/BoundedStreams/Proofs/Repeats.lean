import BoundedStreams.Proofs.Chunks
import BoundedStreams.Proofs.Confinement
import BoundedStreams.Proofs.Endings
import BoundedStreams.Proofs.Staggering

/-! How often an orphan stands in the queue of ends. A turn takes the queue at once and puts off the ends of
those that it told of something before; meanwhile callbacks may ask for the same ends again. -/

namespace BoundedStreams

namespace Manager

variable {κ : Type}

/-- There is an orphan under `h` with the record `r`, whose consumer was told of something in this turn. -/
structure HasTold (m : Manager κ) (h : Handle) (r : Stream κ) : Prop where
  record : m.streams.get? h = some r
  socket : r.socket = none
  told : r.notifiedTurn = some m.turns

/-- If the end of `h` is due it waits for the next turn. -/
def PutsOff (m : Manager κ) (h : Handle) : Prop := ∃ r, m.HasTold h r ∧ r.callback.isSome = true

lemma count_scheduleEnd_le (m : Manager κ) (g h : Handle) :
    (m.scheduleEnd g).ending.count h ≤ max 1 (m.ending.count h) := by
  rw [scheduleEnd]
  split
  · exact Nat.le_max_right _ _
  · next hg =>
    have hzero : m.ending.count g = 0 := List.count_eq_zero.mpr (by simpa using hg)
    rw [List.count_append, List.count_singleton]
    split
    · next he =>
      obtain rfl : g = h := by simpa using he
      rw [hzero]
      exact Nat.le_max_left _ _
    · exact Nat.le_max_right _ _

end Manager

namespace Site

variable {κ : Type} {h : Handle} {s s' : Site κ}

/-- The end of `h` comes into the queue only if it is not there. -/
def Schedules (h : Handle) (s s' : Site κ) : Prop :=
  s'.manager.ending.count h ≤ max 1 (s.manager.ending.count h)

lemma Schedules.of_le (hle : s'.manager.ending.count h ≤ s.manager.ending.count h) : Schedules h s s' :=
  Nat.le_trans hle (Nat.le_max_right _ _)

lemma Schedules.of_eq (he : s'.manager.ending = s.manager.ending) : Schedules h s s' :=
  .of_le (Nat.le_of_eq (congrArg (List.count h) he))

lemma Quiet.schedules (hq : s.Quiet s') : Schedules h s s' := .of_eq hq.ending

lemma Schedules.trans {s₁ s₂ s₃ : Site κ} (h₁ : Schedules h s₁ s₂) (h₂ : Schedules h s₂ s₃) :
    Schedules h s₁ s₃ :=
  Nat.le_trans h₂ (Nat.max_le.mpr ⟨Nat.le_max_left _ _, h₁⟩)

lemma Schedules.count_le (hs : Schedules h s s')
    (hmem : h ∈ s'.manager.ending → h ∈ s.manager.ending) :
    s'.manager.ending.count h ≤ s.manager.ending.count h := by
  by_cases hh : h ∈ s.manager.ending
  · have hpos : 1 ≤ s.manager.ending.count h := List.count_pos_iff.mpr hh
    exact Nat.max_eq_right hpos ▸ hs
  · rw [List.count_eq_zero.mpr (mt hmem hh)]
    exact Nat.zero_le _

lemma count_unscheduleEnd_le (m : Manager κ) (g h : Handle) :
    (m.unscheduleEnd g).ending.count h ≤ m.ending.count h := List.filter_sublist.count_le h

lemma schedules_close (s : Site κ) (g : Handle) : Schedules h s (s.close g) := by
  cases hr : s.manager.streams.get? g with
  | none =>
    simp only [close, hr]
    exact .of_eq rfl
  | some r =>
    cases hc : r.socket with
    | none =>
      simp only [close, hr, hc]
      exact .of_le (count_unscheduleEnd_le _ g h)
    | some c =>
      refine .of_eq ?_
      simp only [close, hr, hc]
      exact (quiet_abort _ c).ending

lemma schedules_arm (s : Site κ) (g : Handle) (want : Interests) (callback : Option κ) :
    Schedules h s (s.arm g want callback).2 := by
  rw [arm]
  split
  · exact .of_eq rfl
  · dsimp only
    split
    · exact .of_eq rfl
    · split
      · rw [releaseOrphan]
        split
        · exact .of_le (count_unscheduleEnd_le _ g h)
        · exact .of_eq rfl
      · exact Manager.count_scheduleEnd_le _ g h

lemma schedules_read (s : Site κ) (g : Handle) (k : Nat) : Schedules h s (s.read g k).2 := by
  rw [read]
  split
  · exact .of_eq rfl
  · split
    · exact .of_eq rfl
    · split <;> exact .of_eq rfl

lemma schedules_accept (s : Site κ) : Schedules h s s.accept.2 := by
  rw [accept]
  dsimp only
  split
  · exact .of_eq rfl
  · split <;> exact .of_eq rfl

lemma schedules_call (s : Site κ) (call : Call Handle κ) : Schedules h s (call.perform s).2 := by
  cases call with
  | openListener callback => exact (s.quiet_openListener callback).schedules
  | closeListener => exact s.quiet_closeListener.schedules
  | port | closeOutput g | state g | stats => exact .of_eq rfl
  | write g bytes => exact (s.quiet_write g bytes).schedules
  | accept => exact s.schedules_accept
  | close g => exact s.schedules_close g
  | arm g want callback => exact s.schedules_arm g want callback
  | read g k => exact s.schedules_read g k

lemma schedules_detach (s : Site κ) (g : Handle) (abortive : Bool) :
    Schedules h s (s.detach g abortive) := by
  rw [detach]
  dsimp only
  split
  · exact .of_eq rfl
  · next r hr =>
    split
    · exact .of_eq rfl
    · next c hc =>
      let s₁ := s.put { s.manager.updateStream g fun r => { r with socket := none } with
        sockets := s.manager.sockets.erase c
        active := s.manager.active - 1
        stagger := s.manager.stagger.closed s.now }
      have hq : s₁.Quiet (if abortive then s₁.abort c else s₁) := by
        split
        · exact s₁.quiet_abort c
        · exact .refl s₁
      have h₁ : Schedules h s (if abortive then s₁.abort c else s₁) := .of_eq hq.ending
      split
      · exact h₁
      · exact h₁.trans (Manager.count_scheduleEnd_le _ g h)

lemma schedules_evict (s : Site κ) : Schedules h s s.evict.2 := by
  rw [evict]
  dsimp only
  split
  · exact .of_eq rfl
  · split
    · exact .of_eq rfl
    · exact schedules_detach _ _ true

lemma schedules_judge (s : Site κ) : Schedules h s s.judge.2 := by
  have hev : Schedules h s s.evict.2 := s.schedules_evict
  rw [judge]
  split
  · split <;> next heq => rwa [heq] at hev
  · exact .of_eq rfl

lemma schedules_onAccepted (s : Site κ) (c l : SocketId) : Schedules h s (s.onAccepted c l) := by
  rw [onAccepted]
  split
  · exact (quiet_abort _ c).schedules
  · have hj : Schedules h s s.judge.2 := s.schedules_judge
    split
    · next s₁ hs₁ =>
      rw [hs₁] at hj
      exact hj
    · next reason s₁ hs₁ =>
      rw [hs₁] at hj
      exact hj.trans (.of_eq (quiet_abort _ c).ending)

lemma schedules_onClosed (s : Site κ) (c : SocketId) : Schedules h s (s.onClosed c) := by
  rw [onClosed]
  split
  · exact .of_eq rfl
  · split
    · exact schedules_detach _ _ false
    · exact .of_eq rfl

lemma schedules_evaluate (s : Site κ) (g : Handle) : Schedules h s (s.evaluate g).1 := by
  rw [evaluate]
  split
  · exact .of_eq rfl
  · split
    · split
      · exact .of_eq rfl
      · split <;> exact .of_eq rfl
    · exact .of_eq rfl

lemma schedules_handle (s : Site κ) (e : SocketEvent) : Schedules h s (s.handle e).1 := by
  rw [handle]
  split
  · exact s.schedules_onAccepted e.socket _
  · exact s.schedules_onClosed e.socket
  all_goals
    split
    · exact s.schedules_evaluate _
    · exact .of_eq rfl

lemma schedules_deliverEnd (s : Site κ) (g : Handle) : Schedules h s (s.deliverEnd g).1 ∨
    g = h ∧ s.manager.PutsOff h ∧
      s.deliverEnd g = (s.put { s.manager with ending := s.manager.ending ++ [h] }, none) := by
  rw [deliverEnd]
  split
  · exact .inl (.of_eq rfl)
  · next r hr =>
    split
    · next cb hc hcb =>
      split
      · next ht =>
        by_cases hg : g = h
        · subst hg
          exact .inr ⟨rfl, ⟨r, ⟨hr, hc, ht⟩, by rw [hcb]; rfl⟩, rfl⟩
        · refine .inl (.of_le ?_)
          simp [put, List.count_append, hg]
      · split <;> exact .inl (.of_eq rfl)
    · exact .inl (.of_eq rfl)

lemma deliverEnd_of_putsOff (hp : s.manager.PutsOff h) :
    s.deliverEnd h = (s.put { s.manager with ending := s.manager.ending ++ [h] }, none) := by
  obtain ⟨r, hr, hcb⟩ := hp
  obtain ⟨cb, hcb⟩ := Option.isSome_iff_exists.mp hcb
  simp only [deliverEnd, hr.record, hr.socket, hcb, hr.told, if_true]

lemma schedules_offerPending (s : Site κ) : Schedules h s s.offerPending.1 := by
  rw [offerPending]
  dsimp only
  split
  · exact .of_eq rfl
  · split
    · split <;> exact .of_eq rfl
    · exact .of_eq rfl

lemma notice_deliverEnd (s : Site κ) (g : Handle) : (s.deliverEnd g).2 = none ∨
    ∃ cb e, (s.deliverEnd g).2 = some (.event cb g e) := by
  rw [deliverEnd]
  split
  · exact .inl rfl
  · split
    · split
      · exact .inl rfl
      · split
        · exact .inl rfl
        · exact .inr ⟨_, _, rfl⟩
    · exact .inl rfl

/-- What happens to connections is told to streams that have one. -/
lemma attached_of_handle (s : Site κ) (hs : s.manager.Coherent) {ev : SocketEvent} {cb : κ}
    {e : StreamEvent} (hn : (s.handle ev).2 = some (.event cb h e)) :
    ∃ r, s.manager.streams.get? h = some r ∧ r.socket ≠ none := by
  rw [handle] at hn
  split at hn
  · cases hn
  · cases hn
  all_goals
    split at hn
    · next g hg =>
      obtain ⟨r, hr, hc⟩ := hs.record ev.socket g hg
      rcases s.evaluate_cases g with hnone | ⟨cb', e', he⟩
      · rw [hnone] at hn
        cases hn
      · rw [he] at hn
        cases hn
        exact ⟨r, hr, by simp [hc]⟩
    · cases hn

/-- An end comes into the queue a second time only by being put off. -/
lemma schedules_next (s : Site κ) (a : Agenda) : Schedules h s (a.next s).2.1 ∨
    ∃ hs, a = .ends (h :: hs) ∧ s.manager.PutsOff h ∧
      a.next s = (some (.ends hs), s.put { s.manager with ending := s.manager.ending ++ [h] }, none) := by
  rcases a with (_ | ⟨e, es⟩) | (_ | ⟨g, hs⟩) | _
  · exact .inl (.of_le (Nat.zero_le _))
  · exact .inl (s.schedules_handle e)
  · exact .inl s.schedules_offerPending
  · rcases s.schedules_deliverEnd g (h := h) with hle | ⟨rfl, hputs, he⟩
    · exact .inl hle
    · refine .inr ⟨hs, rfl, hputs, ?_⟩
      rw [Agenda.next, he]
  · exact .inl s.quiet_flush.schedules

end Site

namespace Agenda

variable {κ : Type}

/-- A job tells of a stream that has its socket, or of the orphan whose end is due. -/
lemma recipient {s : Site κ} (hs : s.manager.Coherent) {a : Agenda} {cb : κ} {h : Handle}
    {e : StreamEvent} (hn : (a.next s).2.2 = some (.event cb h e)) :
    (∃ hs, a = .ends (h :: hs)) ∨
      ∃ es r, a = .events es ∧ s.manager.streams.get? h = some r ∧ r.socket ≠ none := by
  rcases a with (_ | ⟨ev, es⟩) | (_ | ⟨g, hs'⟩) | _
  · cases hn
  · obtain ⟨r, hr, hc⟩ := s.attached_of_handle hs hn
    exact .inr ⟨_, r, rfl, hr, hc⟩
  · have hn : s.offerPending.2 = some (.event cb h e) := hn
    rcases s.front_offerPending with ⟨hnone, -⟩ | ⟨l, p, b, -, -, -, hoffer, -⟩
    · rw [hnone] at hn
      cases hn
    · rw [hoffer] at hn
      cases hn
  · left
    have hn : (s.deliverEnd g).2 = some (.event cb h e) := hn
    rcases s.notice_deliverEnd g with hnone | ⟨cb', e', he⟩
    · rw [hnone] at hn
      cases hn
    · rw [he] at hn
      cases hn
      exact ⟨hs', rfl⟩
  · cases hn

end Agenda

/-- In a turn a callback asks again for the end of an orphan that is still due in the turn and will be put
off, for its consumer was told of something before. -/
def Stride.Revives {κ : Type} (x : Stride κ) (i : Nat) (h : Handle) : Prop :=
  ∃ m r want cb, x.before.manager? i = some m ∧ m.HasTold h r ∧ h ∈ x.before.due i ∧
    x.move = .call i (.arm h want cb) ∧ want.isEmpty = false

namespace Moment

variable {κ : Type} {w w' : Moment κ} {mv : Move κ} {o : Outcome κ} {i : Nat} {h : Handle}

/-- The innermost turn is that of manager `i`, and it puts the end of `h` off next. -/
def PutsOff (w : Moment κ) (i : Nat) (h : Handle) : Prop :=
  ∃ m hs, w.manager? i = some m ∧ w.job? i = some (.ends (h :: hs)) ∧ m.PutsOff h

/-- A step brings an end into the queue that is not there, or puts one off. -/
lemma Step.schedules (hst : Step w mv o w') (hw : w.Orderly) {m m' : Manager κ}
    (hm : w.manager? i = some m) (hm' : w'.manager? i = some m') (h : Handle) :
    m'.ending.count h ≤ max 1 (m.ending.count h) ∨ mv = .proceed ∧ m.PutsOff h ∧
      m' = { m with ending := m.ending ++ [h] } ∧
        ∃ hs, w.job? i = some (.ends (h :: hs)) ∧ w'.agenda? i = some (.ends hs) := by
  have hsite : ∀ {s s' : Site κ}, w.site? i = some s → w'.site? i = some s' →
      s.manager = m ∧ s'.manager = m' := by
    intro s s' hs hs'
    exact ⟨Option.some.inj ((manager?_of_site? hs).symm.trans hm),
      Option.some.inj ((manager?_of_site? hs').symm.trans hm')⟩
  have hview := hst.view hw i
  cases hview with
  | apart mv o hsame ha hn hc hb hr =>
    rw [hm, hm'] at hsame
    cases hsame
    exact .inl (Nat.le_max_right _ _)
  | born p hi hnew ha =>
    have hlt := lt_of_manager? hm
    omega
  | gone hnone ha ha' =>
    rw [hm'] at hnone
    cases hnone
  | begin s hs hs' ha ha' =>
    obtain ⟨rfl, rfl⟩ := hsite hs hs'
    exact .inl (Nat.le_max_right _ _)
  | call c s hs hs' ha =>
    obtain ⟨rfl, rfl⟩ := hsite hs hs'
    exact .inl (s.schedules_call c)
  | leave s hs hs' ha =>
    obtain ⟨rfl, rfl⟩ := hsite hs hs'
    exact .inl s.quiet_leave.schedules
  | job a s hs ha hs' ha' =>
    obtain ⟨rfl, rfl⟩ := hsite hs hs'
    rcases s.schedules_next a (h := h) with hle | ⟨hs'', rfl, hputs, he⟩
    · exact .inl (hle.trans ((a.next s).2.1.quiet_called (a.next s).2.2).schedules)
    · rw [he] at ha' ⊢
      refine .inr ⟨rfl, hputs, rfl, hs'', ?_, ha'⟩
      cases hj : w.job? i with
      | none =>
        have hsame := hst.agenda?_eq hj nofun
        rw [ha, ha'] at hsame
        simp at hsame
      | some b => exact ((agenda?_of_job? hj).symm.trans ha)

/-- Whom a callback is told of: a stream that has its socket, or the orphan that was due. -/
lemma Step.recipient (hst : Step w mv (.notice i (.event cb h e)) w') (hw : w.Orderly) {m : Manager κ}
    (hm : w.manager? i = some m) : ∃ a, w.agenda? i = some a ∧ ((∃ hs, a = .ends (h :: hs)) ∨
      ∃ es r, a = .events es ∧ m.streams.get? h = some r ∧ r.socket ≠ none) := by
  have hview := hst.view hw i
  generalize ho : Outcome.notice i (.event cb h e) = o at hview
  cases hview with
  | apart mv o hsame ha hn hc hb hr => exact absurd ho.symm (hn _)
  | born p hi hnew ha | gone hnone ha ha' | begin s hs hs' ha ha' | call c s hs hs' ha
  | leave s hs hs' ha => cases ho
  | job a s hs ha hs' ha' =>
    rw [manager?_of_site? hs] at hm
    cases hm
    cases hn : (a.next s).2.2 with
    | none =>
      rw [hn] at ho
      cases ho
    | some n =>
      rw [hn] at ho
      cases ho
      exact ⟨a, ha, Agenda.recipient (hw.coherent_site hs) hn⟩

/-- The queue of ends has `h` at most `b` times, and `a`, which is left of the turn, does not change that. -/
structure Sparse (b : Nat) (m : Manager κ) (a : Option Agenda) (h : Handle) : Prop where
  queued : m.ending.count h ≤ b
  due : (a.elim [] Agenda.due).count h ≤ b
  told : ∀ r, m.HasTold h r → (a.elim [] Agenda.due).count h ≤ 1 ∧
    m.ending.count h + (a.elim [] Agenda.due).count h ≤ b
  /-- Before the ends have their turn none is put off. -/
  early : ∀ es r, a = some (.events es) → m.HasTold h r → m.ending.count h ≤ 1
  /-- No end is put off before its stream was told of something. -/
  late : ∀ hs r, a = some (.ends hs) → m.streams.get? h = some r → r.socket = none →
    r.notifiedTurn ≠ some m.turns → m.ending.count h ≤ 1

/-- What is left of a turn becomes less. -/
structure Dwindles (h : Handle) (a a' : Option Agenda) : Prop where
  due : (a'.elim [] Agenda.due).count h ≤ (a.elim [] Agenda.due).count h
  events : ∀ es', a' = some (.events es') → ∃ es, a = some (.events es)
  ends : ∀ hs', a' = some (.ends hs') → ∃ hs, a = some (.ends hs)

lemma Dwindles.refl (h : Handle) (a : Option Agenda) : Dwindles h a a :=
  ⟨Nat.le_refl _, fun es he => ⟨es, he⟩, fun hs he => ⟨hs, he⟩⟩

lemma dwindles_rest {a : Agenda} (ha : a ≠ .events []) (h : Handle) : Dwindles h (some a) a.rest := by
  rcases a with (_ | ⟨e, es⟩) | (_ | ⟨g, hs⟩) | _
  · exact absurd rfl ha
  · exact ⟨Nat.le_refl _, fun _ _ => ⟨_, rfl⟩, nofun⟩
  · exact ⟨Nat.le_refl _, nofun, nofun⟩
  · exact ⟨List.count_le_count_cons, nofun, fun _ _ => ⟨_, rfl⟩⟩
  · exact ⟨Nat.le_refl _, nofun, nofun⟩

section Sparse

variable {b : Nat} {m m' : Manager κ} {a a' : Option Agenda}

/-- Only orphans are in the queue. -/
lemma Sparse.of_attached {due : List Handle} (hk : Kept m' due h)
    (hno : ∀ r, m'.streams.get? h = some r → r.socket ≠ none)
    (hdue : (a'.elim [] Agenda.due).count h ≤ b) : Sparse b m' a' h := by
  have hzero : m'.ending.count h = 0 := by
    refine List.count_eq_zero.mpr fun hh => ?_
    obtain ⟨r, hr, hc⟩ := hk.queued hh
    exact hno r hr hc
  exact ⟨by omega, hdue, fun r hr => absurd hr.socket (hno r hr.record), by omega, by omega⟩

/-- The orphan is told of nothing. -/
lemma Sparse.keep (hsp : Sparse b m a h) (hb : 1 ≤ b) (ha : Dwindles h a a')
    (hq : m'.ending.count h ≤ max 1 (m.ending.count h))
    (hrec : ∀ r', m'.streams.get? h = some r' → r'.socket = none → ∃ r, m.streams.get? h = some r ∧
      r.socket = none ∧ (r'.notifiedTurn = some m'.turns ↔ r.notifiedTurn = some m.turns))
    (hsum : ∀ r, m.HasTold h r → m'.ending.count h + (a'.elim [] Agenda.due).count h ≤ b) :
    Sparse b m' a' h := by
  have htold : ∀ r', m'.HasTold h r' → ∃ r, m.HasTold h r := by
    intro r' hr'
    obtain ⟨r, hr, hc, ht⟩ := hrec r' hr'.record hr'.socket
    exact ⟨r, hr, hc, ht.mp hr'.told⟩
  have hqueued := hsp.queued
  have hdue := Nat.le_trans ha.due hsp.due
  refine ⟨by omega, hdue, fun r' hr' => ?_, fun es' r' he hr' => ?_, fun hs' r' he hr' hc' ht' => ?_⟩
  · obtain ⟨r, hr⟩ := htold r' hr'
    exact ⟨Nat.le_trans ha.due (hsp.told r hr).1, hsum r hr⟩
  · obtain ⟨r, hr⟩ := htold r' hr'
    obtain ⟨es, he⟩ := ha.events es' he
    have hearly := hsp.early es r he hr
    omega
  · obtain ⟨r, hr, hc, ht⟩ := hrec r' hr' hc'
    obtain ⟨hs, he⟩ := ha.ends hs' he
    have hlate := hsp.late hs r he hr hc (mt ht.mpr ht')
    omega

lemma Sparse.putOff {hs : List Handle} (hsp : Sparse b m (some (.ends (h :: hs))) h)
    (hp : m.PutsOff h) : Sparse b { m with ending := m.ending ++ [h] } (some (.ends hs)) h := by
  obtain ⟨r, hr, -⟩ := hp
  obtain ⟨hone, hsum⟩ := hsp.told r hr
  simp only [Option.elim_some, Agenda.due, List.count_cons_self] at hone hsum
  have hcount : (m.ending ++ [h]).count h = m.ending.count h + 1 := by
    rw [List.count_append, List.count_singleton_self]
  refine ⟨?_, ?_, fun q hq => ⟨?_, ?_⟩, nofun, fun _ q _ hq hc ht => ?_⟩
  · simp only [hcount]
    omega
  · simp only [Option.elim_some, Agenda.due]
    omega
  · simp only [Option.elim_some, Agenda.due]
    omega
  · simp only [Option.elim_some, Agenda.due, hcount]
    omega
  · rw [hr.record] at hq
    cases hq
    exact absurd hr.told ht

/-- One of the times that the end was due is over. -/
lemma Sparse.tell {hs : List Handle} (hsp : Sparse b m (some (.ends (h :: hs))) h) (hb : 1 ≤ b)
    (hb' : b ≤ 2) (hone : m'.ending.count h ≤ 1) : Sparse b m' (some (.ends hs)) h := by
  have hdue := hsp.due
  simp only [Option.elim_some, Agenda.due, List.count_cons_self] at hdue
  refine ⟨Nat.le_trans hone hb, ?_, fun _ _ => ?_, nofun, fun _ _ _ _ _ _ => hone⟩
  · simp only [Option.elim_some, Agenda.due]
    omega
  · simp only [Option.elim_some, Agenda.due]
    omega

lemma Sparse.course {s s' : Site κ} {t : Treatment κ} {due due' : List Handle}
    (hsp : Sparse b s.manager a h) (hb : 1 ≤ b) (hb' : b ≤ 2) (hk : Kept s.manager due h)
    (hk' : Kept s'.manager due' h) (ht : Site.Treats h t s s') (hq : Site.Schedules h s s')
    (ha : Dwindles h a a')
    (harm : ∀ want cb, t = .arm want cb → want.isEmpty = false → ∀ r, s.manager.HasTold h r →
      0 < (a.elim [] Agenda.due).count h → 2 ≤ b)
    (hnotify : ∀ cb e, t = .notify cb e → (∃ hs, a = some (.ends (h :: hs)) ∧ a' = some (.ends hs)) ∨
      ∃ r, s.manager.streams.get? h = some r ∧ r.socket ≠ none)
    (hpostpone : t = .postpone → ∃ hs, a = some (.ends (h :: hs)) ∧ a' = some (.ends hs))
    (hlose : t = .lose → ∃ es, a' = some (.events es)) : Sparse b s'.manager a' h := by
  have hdue := Nat.le_trans ha.due hsp.due
  have hturns := ht.turns
  have hattached : ∀ r', s'.manager.streams.get? h = some r' → r'.socket ≠ none →
      Sparse b s'.manager a' h := by
    refine fun r' hr' hc' => .of_attached hk' (fun q hq => ?_) hdue
    rw [hr'] at hq
    cases hq
    exact hc'
  cases ht.course with
  | spare hr he =>
    have hle := hq.count_le he.mp
    refine hsp.keep hb ha hq (fun r hr' hc => ⟨r, hr ▸ hr', hc, by rw [hturns]⟩) fun r hr' => ?_
    have hsum := (hsp.told r hr').2
    have hdue := ha.due
    omega
  | touch r hr hc hr' he => exact hattached _ hr' hc
  | claim c hr hr' he => exact hattached _ hr' nofun
  | arm want cb r hr hr' hw he =>
    by_cases hc : r.socket = none
    · refine hsp.keep hb ha hq (fun q hq hc' => ?_) fun q hq' => ?_
      · rw [hr'] at hq
        cases hq
        exact ⟨r, hr, hc, by rw [hturns]; rfl⟩
      · obtain ⟨hone, hsum⟩ := hsp.told q hq'
        have htwo := harm want cb rfl (hw hc) q hq'
        have hdue := ha.due
        rw [Site.Schedules] at hq
        omega
    · exact hattached _ hr' hc
  | notify cb e r hr hcb ho hst hd hr' he =>
    rcases hnotify cb e rfl with ⟨hs, rfl, rfl⟩ | ⟨q, hq, hc⟩
    · by_cases hc : r.socket = none
      · exact hsp.tell hb hb' (Nat.le_trans (hq.count_le he.mp) (hsp.late _ r rfl hr hc hst))
      · exact hattached _ hr' hc
    · rw [hr] at hq
      cases hq
      exact hattached _ hr' hc
  | postpone r hr hc hr' he =>
    obtain ⟨hs, rfl, rfl⟩ := hpostpone rfl
    refine hsp.keep hb ha hq (fun q hq hc' => ?_) fun q hq' => ?_
    · exact ⟨q, by rw [hr, ← hq, hr'], hc', by rw [hturns]⟩
    · obtain ⟨hone, hsum⟩ := hsp.told q hq'
      simp only [Option.elim_some, Agenda.due, List.count_cons_self] at hone hsum ⊢
      rw [Site.Schedules] at hq
      omega
  | lose r c hr hc hi hr' he =>
    obtain ⟨es, rfl⟩ := hlose rfl
    have hzero : s.manager.ending.count h = 0 := by
      refine List.count_eq_zero.mpr fun hh => ?_
      have hnone := hk.socket_eq_none hr hh
      rw [hc] at hnone
      cases hnone
    rw [Site.Schedules, hzero] at hq
    refine ⟨by omega, Nat.zero_le _, fun q _ => ⟨Nat.zero_le _, ?_⟩, fun _ _ _ _ => by omega, nofun⟩
    simp only [Option.elim_some, Agenda.due, List.count_nil]
    omega
  | free r hr hr' he =>
    refine .of_attached hk' (fun q hq => ?_) hdue
    rw [hr'] at hq
    cases hq

end Sparse

lemma Tended.sparse_step {past : History κ} (hw : Tended past w) (hstep : w.step mv = some (o, w'))
    {b : Nat} (hb : 1 ≤ b) (hb' : b ≤ 2) (hrev : 2 ≤ b ∨ ¬ Stride.Revives ⟨w, mv, o, w'⟩ i h)
    (hsp : ∀ m, w.manager? i = some m → Sparse b m (w.agenda? i) h) {m' : Manager κ}
    (hm' : w'.manager? i = some m') : Sparse b m' (w'.agenda? i) h := by
  have horderly := hw.heard.numbered.orderly
  have hst := step_cases hstep
  have hk' := (hw.step hstep).kept i h m' hm'
  cases hw.passage hstep i h with
  | away mv o hm hm'' ho hcall | gone hm'' ha =>
    rw [hm'] at hm''
    cases hm''
  | born p m hi hm hstreams he ha =>
    rw [hm'] at hm
    cases hm
    refine .of_attached hk' (fun r hr => ?_) (by rw [ha]; exact Nat.zero_le _)
    rw [hstreams, Arena.get?_empty] at hr
    cases hr
  | begun s hs hs' ha ha' =>
    have hm := manager?_of_site? hs
    rw [manager?_of_site? hs'] at hm'
    cases hm'
    have hfresh : ∀ r, ¬ s.begin.2.manager.HasTold h r := by
      intro r hr
      have hle := hw.heard.stamp i _ h r (s.manager.turns + 1) hm hr.record hr.told
      exact Nat.not_succ_le_self _ hle
    rw [ha']
    exact ⟨(hsp _ hm).queued, Nat.zero_le _, fun r hr => absurd hr (hfresh r),
      fun _ r _ hr => absurd hr (hfresh r), nofun⟩
  | taken s hs hs' ha ha' =>
    have hm := manager?_of_site? hs
    rw [manager?_of_site? hs'] at hm'
    cases hm'
    have hbefore := hsp _ hm
    rw [ha] at hbefore
    rw [ha']
    refine ⟨Nat.zero_le _, hbefore.queued, fun r hr => ?_, nofun, fun _ _ _ _ _ _ => Nat.zero_le _⟩
    have hone : s.manager.ending.count h ≤ 1 := hbefore.early [] r rfl ⟨hr.record, hr.socket, hr.told⟩
    exact ⟨hone, (Nat.zero_add _).trans_le (Nat.le_trans hone hb)⟩
  | treated mv o s s' t hs hs' ht hbrings ha =>
    have hm := manager?_of_site? hs
    have hsite' := manager?_of_site? hs'
    have hbefore := hsp _ hm
    rcases hst.schedules horderly hm hsite' h with hq | ⟨rfl, hputs, hmanager, hs'', hj, ha'⟩
    · rw [hm'] at hsite'
      cases hsite'
      -- Only a job tells of a stream, and it has its place in the turn.
      have hjob : ∀ u, t = u → u ≠ .spare → mv = .proceed → ∃ a n, w.agenda? i = some a ∧
          w'.agenda? i = a.rest ∧ a.Brings s h n u := by
        rintro u rfl hne rfl
        rcases ha with ⟨-, hspare⟩ | ⟨a, n, -, ha, ha', hb⟩
        · exact absurd (hspare rfl) hne
        · exact ⟨a, n, ha, ha', hb⟩
      refine hbefore.course hb hb' (hw.kept i h _ hm) hk' ht hq ?_ ?_ ?_ ?_ ?_
      · rcases ha with ⟨ha, -⟩ | ⟨a, n, hnil, ha, ha', -⟩
        · rw [ha]
          exact .refl h _
        · rw [ha, ha']
          exact dwindles_rest hnil h
      · rintro want cb rfl hwant r hr hdue
        cases hbrings with
        | arm =>
          refine hrev.resolve_right fun hno => hno ?_
          exact ⟨_, r, want, cb, hm, hr, List.count_pos_iff.mp hdue, rfl, hwant⟩
      · rintro cb e rfl
        cases hbrings with
        | notify =>
          obtain ⟨a, n, ha, ha', -⟩ := hjob _ rfl nofun rfl
          obtain ⟨a', he, hwho⟩ := hst.recipient horderly hm
          rw [ha] at he
          cases he
          rcases hwho with ⟨hs'', rfl⟩ | ⟨es, r, -, hr, hc⟩
          · exact .inl ⟨hs'', ha, ha'⟩
          · exact .inr ⟨r, hr, hc⟩
      · rintro rfl
        cases hbrings with
        | postpone =>
          obtain ⟨a, n, ha, ha', hb⟩ := hjob _ rfl nofun rfl
          cases hb with
          | postpone hs'' => exact ⟨hs'', ha, ha'⟩
      · rintro rfl
        cases hbrings with
        | lose =>
          obtain ⟨a, n, ha, ha', hb⟩ := hjob _ rfl nofun rfl
          cases hb with
          | lose e es => exact ⟨es, ha'⟩
    · rw [hm'] at hsite'
      cases hsite'
      rw [agenda?_of_job? hj] at hbefore
      rw [hmanager, ha']
      exact hbefore.putOff hputs

variable {ports : PortSource} {mvs : List (Move κ)} {es : History κ}

/-- An orphan comes into the queue a second time only if a callback revived it, and never a third time. -/
lemma sparse_run (hr : (initial ports).run mvs = some (es, w)) {b : Nat} (hb : 1 ≤ b) (hb' : b ≤ 2)
    (hrev : 2 ≤ b ∨ ∀ x ∈ (initial ports).trace mvs, ¬ x.Revives i h) {m : Manager κ}
    (hm : w.manager? i = some m) : Sparse b m (w.agenda? i) h := by
  have hall := trace_invariant (P := fun past w => (2 ≤ b ∨ ∀ x ∈ past, ¬ x.Revives i h) →
    ∀ m, w.manager? i = some m → Sparse b m (w.agenda? i) h) ?_ ?_ hr
  · exact hall hrev m hm
  · intro _ m hm
    simp [manager?, initial] at hm
  · rintro past w mv o w' ⟨mvs, es, hr⟩ hpast hs hrev m' hm'
    refine (tended_run hr).sparse_step hs.eq_some hb hb' (hrev.imp_right fun hno => hno _ ?_)
      (hpast (hrev.imp_right fun hno x hx => hno x ?_)) hm'
    · exact List.mem_append_right _ (List.mem_singleton_self _)
    · exact List.mem_append_left _ hx

/-- No orphan stands in the queue of ends more than twice, and none stands there twice unless a callback asked
for its end again while that was still due in the turn and could only be put off. The queue takes in an
orphan that it holds exactly when the end of it is put off. -/
theorem ending_repeats (hr : (initial ports).run mvs = some (es, w)) {m : Manager κ}
    (hm : w.manager? i = some m) :
    (∀ h, m.ending.count h ≤ 2) ∧
    (∀ h, (∀ x ∈ (initial ports).trace mvs, ¬ x.Revives i h) → m.ending.count h ≤ 1) ∧
    ((∀ x ∈ (initial ports).trace mvs, ∀ h, ¬ x.Revives i h) → m.ending.Nodup) ∧
    ∀ h ∈ m.ending, ∀ mv o w' m', w.step mv = some (o, w') → w'.manager? i = some m' →
      (m.ending.count h < m'.ending.count h ↔ mv = .proceed ∧ w.PutsOff i h) := by
  have hone : ∀ h, (∀ x ∈ (initial ports).trace mvs, ¬ x.Revives i h) → m.ending.count h ≤ 1 :=
    fun h hno => (sparse_run hr (Nat.le_refl 1) (Nat.le_succ 1) (.inr hno) hm).queued
  refine ⟨fun h => ?_, hone, fun hno => ?_, fun h hh mv o w' m' hs hm' => ?_⟩
  · exact (sparse_run hr (Nat.le_succ 1) (Nat.le_refl 2) (.inl (Nat.le_refl 2)) hm).queued
  · exact List.nodup_iff_count_le_one.mpr fun h => hone h fun x hx => hno x hx h
  · have hpos : 1 ≤ m.ending.count h := List.count_pos_iff.mpr hh
    constructor
    · intro hlt
      rcases (step_cases hs).schedules (orderly_run hr) hm hm' h with hle | ⟨rfl, hputs, -, hs', hj, -⟩
      · rw [Nat.max_eq_right hpos] at hle
        exact absurd hlt (Nat.not_lt.mpr hle)
      · exact ⟨rfl, m, hs', hm, hj, hputs⟩
    · rintro ⟨rfl, q, hs', hq, hj, hputs⟩
      rw [hm] at hq
      cases hq
      have hsite := (w.site?_eq_some_iff i ⟨w.network, m, w.journal⟩).mpr ⟨hm, rfl, rfl⟩
      obtain ⟨w'', hs'', hm''⟩ := step_of_job? hj hsite
      cases hs.symm.trans hs''
      rw [Agenda.next, Site.deliverEnd_of_putsOff hputs] at hm''
      cases hm'.symm.trans hm''
      simp [Site.put]

/-- Both streams lose their sockets, and the first is told of something else in the same turn. When the second
hears of its end, the first is armed. -/
def revival : List (Move Unit) :=
  twoClaimed ++ [.call 0 (.arm ⟨0, 1⟩ .write (some ())), .call 0 (.arm ⟨1, 1⟩ .read (some ())), .leave,
    .proceed, .network (.peerClose ⟨3⟩), .network (.peerSend ⟨2⟩ [7]), .network (.peerClose ⟨2⟩),
    .begin 0, .proceed, .proceed, .leave, .proceed, .proceed, .proceed,
    .call 0 (.arm ⟨0, 1⟩ .read (some ())), .leave]

theorem ending_not_distinct : ¬ ∀ (mvs : List (Move Unit)) (es : History Unit) (w : Moment Unit)
    (i : Nat) (m : Manager Unit), (initial .standard).run mvs = some (es, w) →
      w.manager? i = some m → m.ending.Nodup := by
  intro h
  have htwice := h (revival ++ [.proceed]) _ _ 0 _ rfl rfl
  have hpair : [(⟨0, 1⟩ : Handle), ⟨0, 1⟩].Nodup := htwice
  simp at hpair

theorem ending_repeats_revival : ∃ es w m w' m', (initial .standard).run revival = some (es, w) ∧
    w.manager? 0 = some m ∧ m.ending = [⟨0, 1⟩] ∧ w.step .proceed = some (.done, w') ∧
    w'.manager? 0 = some m' ∧ m.ending.count ⟨0, 1⟩ < m'.ending.count ⟨0, 1⟩ := by
  have hrun : ∃ es w m w' m' r, (initial .standard).run revival = some (es, w) ∧
      w.manager? 0 = some m ∧ m.ending = [⟨0, 1⟩] ∧ w.step .proceed = some (.done, w') ∧
      w'.manager? 0 = some m' ∧ w.job? 0 = some (.ends [⟨0, 1⟩]) ∧
      m.streams.get? ⟨0, 1⟩ = some r ∧ r.socket = none ∧ r.notifiedTurn = some m.turns ∧
      r.callback.isSome = true :=
    ⟨_, _, _, _, _, _, rfl, rfl, rfl, rfl, rfl, rfl, rfl, rfl, rfl, rfl⟩
  obtain ⟨es, w, m, w', m', r, hr, hm, hending, hs, hm', hj, hrec, hc, ht, hcb⟩ := hrun
  obtain ⟨-, -, -, hgrows⟩ := ending_repeats hr hm
  refine ⟨es, w, m, w', m', hr, hm, hending, hs, hm', ?_⟩
  refine (hgrows ⟨0, 1⟩ (by simp [hending]) _ _ _ _ hs hm').mpr ?_
  exact ⟨rfl, m, [], hm, hj, r, ⟨hrec, hc, ht⟩, hcb⟩

end Moment

end BoundedStreams
