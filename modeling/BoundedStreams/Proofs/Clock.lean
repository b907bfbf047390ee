import BoundedStreams.Proofs.Trace
import BoundedStreams.Proofs.Waiting

/-! The clock. Only an action of the network moves it, and never back. -/

namespace BoundedStreams

namespace Network

lemma Sheds.clock {n n' : Network} (h : n.Sheds n') : n'.clock = n.clock := by
  obtain ⟨cs, rfl⟩ := h
  induction cs generalizing n with
  | nil => rfl
  | cons c cs ih =>
    refine ih.trans ?_
    rw [close]
    split <;> rfl

lemma clock_bind (n : Network) (p : Port) : (n.bind p).2.clock = n.clock := by
  obtain ⟨q, k, ls, -, hn⟩ := n.bind_frame p
  rw [hn]

lemma clock_recv (n : Network) (c : SocketId) (k : Nat) : (n.recv c k).2.clock = n.clock := by
  rw [recv]
  split <;> rfl

lemma clock_schedule (n : Network) (c : SocketId) (d : Nat) : (n.schedule c d).clock = n.clock := by
  rw [schedule]
  split <;> rfl

lemma clock_perform (n : Network) (a : Action) : n.clock ≤ (n.perform a).2.clock := by
  have hclose : ∀ c, (n.close c).clock = n.clock := fun c => Sheds.clock ⟨[c], rfl⟩
  cases a with
  | advance d =>
    show n.clock ≤ (n.advance d).clock
    rw [advance]
    split
    · next t ht =>
      have hsum := (Duration.after?_eq_some_iff.mp ht).1
      exact hsum ▸ Nat.le_add_right _ _
    · exact Nat.le_refl _
  | connect p =>
    show n.clock ≤ (n.connect p).2.clock
    rw [connect]
    split <;> exact Nat.le_refl _
  | peerSend c bytes =>
    show n.clock ≤ (n.peerSend c bytes).clock
    rw [peerSend]
    split <;> exact Nat.le_refl _
  | peerTake c =>
    show n.clock ≤ (n.peerTake c).2.clock
    rw [peerTake]
    split <;> exact Nat.le_refl _
  | peerClose c | abort c => exact Nat.le_of_eq (hclose c).symm
  | bind p => exact Nat.le_of_eq (n.clock_bind p).symm
  | recv c k => exact Nat.le_of_eq (n.clock_recv c k).symm
  | schedule c d => exact Nat.le_of_eq (n.clock_schedule c d).symm
  | stall c on | timer c | socket c | listening p | openCount | now | closeListener c | send c bytes
  | poll => exact Nat.le_refl _

end Network

namespace Site

variable {κ : Type}

lemma now_openListener (s : Site κ) (callback : κ) : (s.openListener callback).2.now = s.now := by
  have hbind := s.network.clock_bind s.manager.port
  rw [openListener]
  dsimp only
  split
  · rfl
  · split
    · next heq => exact (congrArg (Network.clock ·.2) heq).symm.trans hbind
    · next heq => exact (congrArg (Network.clock ·.2) heq).symm.trans hbind

lemma now_closeListener (s : Site κ) : s.closeListener.now = s.now := by
  cases hl : s.manager.listener with
  | none => rw [closeListener_of_none hl]
  | some l => exact (sheds_closeListener hl).clock

lemma now_accept (s : Site κ) : s.accept.2.now = s.now := by
  rw [accept]
  dsimp only
  split
  · rfl
  · split <;> rfl

lemma now_arm (s : Site κ) (h : Handle) (want : Interests) (callback : Option κ) :
    (s.arm h want callback).2.now = s.now := by
  rw [arm]
  split
  · rfl
  · dsimp only
    split
    · rfl
    · split
      · rw [releaseOrphan]
        split <;> rfl
      · rfl

lemma now_read (s : Site κ) (h : Handle) (k : Nat) : (s.read h k).2.now = s.now := by
  rw [read]
  split
  · rfl
  · split
    · rfl
    · next c hc =>
      split
      · rfl
      · show Network.clock (if _ then _ else _) = s.network.clock
        split
        · exact ((s.network.recv c k).2.clock_schedule c _).trans (s.network.clock_recv c k)
        · exact s.network.clock_recv c k

lemma now_write (s : Site κ) (h : Handle) (bytes : Bytes) : (s.write h bytes).2.now = s.now := by
  rw [write]
  split
  · rfl
  · split
    · rfl
    · dsimp only
      split <;> rfl

lemma now_call (s : Site κ) (c : Call Handle κ) : (c.perform s).2.now = s.now := by
  cases c with
  | openListener callback => exact s.now_openListener callback
  | closeListener => exact s.now_closeListener
  | accept => exact s.now_accept
  | close h => exact (s.sheds_close h).clock
  | arm h want callback => exact s.now_arm h want callback
  | read h k => exact s.now_read h k
  | write h bytes => exact s.now_write h bytes
  | port | closeOutput h | state h | stats => rfl

lemma now_release (s : Site κ) : s.release.now = s.now :=
  s.sheds_release.clock.trans s.now_closeListener

end Site

namespace Moment

variable {κ : Type} {w w' : Moment κ} {i : Nat} {s : Site κ}

lemma site?_now (hs : w.site? i = some s) : s.now = w.network.clock :=
  congrArg Network.clock ((w.site?_eq_some_iff i s).mp hs).2.1.symm

lemma Step.clock_le {mv : Move κ} {o : Outcome κ} (h : Step w mv o w') :
    w.network.clock ≤ w'.network.clock := by
  cases h with
  | network a hact => exact w.network.clock_perform a
  | note n hact | create p hact => exact Nat.le_refl _
  | call j c s hact hs => exact Nat.le_of_eq ((site?_now hs).symm.trans (s.now_call c).symm)
  | release j s hact hj hs => exact Nat.le_of_eq ((site?_now hs).symm.trans s.now_release.symm)
  | begin j s hact hj hs => exact Nat.le_of_eq (site?_now hs).symm
  | proceed j a fs s hf hs => exact Nat.le_of_eq (sheds_proceed hs a fs).clock.symm
  | leave j a n fs s hf hs => exact Nat.le_of_eq ((site?_now hs).symm.trans s.sheds_leave.clock.symm)

lemma Step.times_le {mv : Move κ} {o : Outcome κ} (h : Step w mv o w') {past : List (Stride κ)}
    (hpast : ∀ x ∈ past, x.time ≤ w.network.clock) :
    ∀ x ∈ past ++ [⟨w, mv, o, w'⟩], x.time ≤ w'.network.clock := by
  rw [List.forall_mem_append, List.forall_mem_singleton]
  exact ⟨fun x hx => Nat.le_trans (hpast x hx) h.clock_le, h.clock_le⟩

end Moment

end BoundedStreams
