import BoundedStreams.Proofs.Deferral
import BoundedStreams.Proofs.Protocol
import BoundedStreams.Proofs.Waiting

/-! Managers use their network as everybody does: what happens to it in a run is a sequence of its
actions, and what was polled in the run is what these actions report. -/

namespace BoundedStreams

namespace Network

/-- Actions that report nothing make `n'` of `n`. -/
def Leads (n n' : Network) : Prop := ∃ as, polled (n.log as) = [] ∧ n' = n.after as

lemma polled_append (es fs : Log) : polled (es ++ fs) = polled es ++ polled fs :=
  List.flatMap_append

lemma Leads.refl (n : Network) : n.Leads n := ⟨[], rfl, rfl⟩

lemma Leads.of_eq {n n' : Network} (h : n' = n) : n.Leads n' := h ▸ .refl n

lemma Leads.trans {n₁ n₂ n₃ : Network} (h : n₁.Leads n₂) (h' : n₂.Leads n₃) : n₁.Leads n₃ := by
  obtain ⟨as, hp, rfl⟩ := h
  obtain ⟨as', hp', rfl⟩ := h'
  refine ⟨as ++ as', ?_, (n₁.after_append as as').symm⟩
  rw [log_append, polled_append, hp, hp', List.append_nil]

lemma leads_perform (n : Network) (a : Action) (ha : (n.perform a).1.batch = []) :
    n.Leads (n.perform a).2 := by
  refine ⟨[a], ?_, rfl⟩
  rw [log, log, polled, List.flatMap_singleton, ha]

lemma Sheds.leads {n n' : Network} (h : n.Sheds n') : n.Leads n' := by
  obtain ⟨cs, rfl⟩ := h
  induction cs generalizing n with
  | nil => exact .refl n
  | cons c cs ih => exact (n.leads_perform (.abort c) rfl).trans ih

end Network

namespace Site

variable {κ : Type}

def Leads (s s' : Site κ) : Prop := s.network.Leads s'.network

lemma leads_openListener (s : Site κ) (callback : κ) : Leads s (s.openListener callback).2 := by
  have hb : s.network.Leads (s.network.bind s.manager.port).2 :=
    s.network.leads_perform (.bind s.manager.port) rfl
  rw [Site.openListener]
  dsimp only
  split
  · exact .refl _
  · split <;> next heq => rwa [heq] at hb

lemma leads_closeListener (s : Site κ) : Leads s s.closeListener := by
  cases hl : s.manager.listener with
  | none =>
    rw [closeListener_of_none hl]
    exact .refl _
  | some l =>
    have h₁ := s.network.leads_perform (.closeListener l.socket) rfl
    exact h₁.trans (sheds_closeListener hl).leads

lemma leads_read (s : Site κ) (h : Handle) (k : Nat) : Leads s (s.read h k).2 := by
  rw [read]
  split
  · exact .refl _
  · split
    · exact .refl _
    · next c _ =>
      split
      · exact .refl _
      · have hrecv : s.network.Leads (s.network.recv c k).2 :=
          s.network.leads_perform (.recv c k) rfl
        dsimp only [Leads]
        split
        · exact hrecv.trans (Network.leads_perform _ (.schedule c _) rfl)
        · exact hrecv

lemma leads_write (s : Site κ) (h : Handle) (bytes : Bytes) : Leads s (s.write h bytes).2 := by
  rw [write]
  split
  · exact .refl _
  · split
    · exact .refl _
    · next c _ =>
      dsimp only
      split
      · exact .refl _
      · exact s.network.leads_perform (.send c _) rfl

lemma leads_call (s : Site κ) (call : Call Handle κ) : Leads s (call.perform s).2 := by
  cases call with
  | openListener callback => exact s.leads_openListener callback
  | closeListener => exact s.leads_closeListener
  | port | closeOutput h | state h | stats => exact .refl _
  | accept => exact .of_eq s.network_accept
  | close h => exact (s.sheds_close h).leads
  | arm h want callback => exact .of_eq (s.network_arm h want callback)
  | read h k => exact s.leads_read h k
  | write h bytes => exact s.leads_write h bytes

lemma leads_release (s : Site κ) : Leads s s.release :=
  s.leads_closeListener.trans s.sheds_release.leads

end Site

namespace Moment

variable {κ : Type}

/-- A step takes what the network has to report, or acts on it without a report. -/
lemma Step.leads {w w' : Moment κ} {mv : Move κ} {o : Outcome κ} (h : Step w mv o w') :
    Stride.polled ⟨w, mv, o, w'⟩ = [] ∧ w.network.Leads w'.network ∨
      Stride.polled ⟨w, mv, o, w'⟩ = w.network.poll.1 ∧ w'.network = w.network.poll.2 := by
  have hsite : ∀ {i : Nat} {s s' : Site κ}, w.site? i = some s → s.Leads s' →
      w.network.Leads s'.network := by
    intro i s s' hs hl
    rw [((w.site?_eq_some_iff i s).mp hs).2.1]
    exact hl
  cases h with
  | network a hact =>
    by_cases ha : a = .poll
    · subst ha
      exact .inr ⟨rfl, rfl⟩
    · refine .inl ⟨?_, w.network.leads_perform a ?_⟩ <;>
        cases a <;> first | rfl | exact absurd rfl ha
  | call i c s hact hs => exact .inl ⟨rfl, hsite hs (s.leads_call c)⟩
  | note n hact => exact .inl ⟨rfl, .refl _⟩
  | create p hact => exact .inl ⟨rfl, .refl _⟩
  | release i s hact hi hs => exact .inl ⟨rfl, hsite hs s.leads_release⟩
  | begin i s hact hi hs =>
    obtain ⟨-, hn, -⟩ := (w.site?_eq_some_iff i s).mp hs
    exact .inr ⟨rfl, by rw [hn]; rfl⟩
  | proceed i a fs s hf hs => exact .inl ⟨rfl, (sheds_proceed hs a fs).leads⟩
  | leave i a n fs s hf hs => exact .inl ⟨rfl, hsite hs s.sheds_leave.leads⟩

/-- The network of a run is the one that a sequence of its actions makes, and the run heard what they
report. -/
lemma actions_run {ports : PortSource} {mvs : List (Move κ)} {es : History κ} {w : Moment κ}
    (hr : (initial ports).run mvs = some (es, w)) : ∃ as, w.network = Network.initial.after as ∧
      ((initial ports).trace mvs).flatMap Stride.polled = Network.polled (Network.initial.log as) := by
  refine trace_invariant (P := fun past w => ∃ as, w.network = Network.initial.after as ∧
    past.flatMap Stride.polled = Network.polled (Network.initial.log as)) ⟨[], rfl, rfl⟩ ?_ hr
  rintro past w mv o w' - ⟨as, hn, hpast⟩ hstep
  have hone : ([⟨w, mv, o, w'⟩] : List (Stride κ)).flatMap Stride.polled =
      Stride.polled ⟨w, mv, o, w'⟩ := List.append_nil _
  rw [List.flatMap_append, hone, hpast]
  -- Only a turn and a poll of the network itself are heard; every other action answers with no events.
  rcases hstep.leads with ⟨hp, bs, hlog, hn'⟩ | ⟨hp, hn'⟩
  · refine ⟨as ++ bs, ?_, ?_⟩
    · rw [hn', hn, Network.after_append]
    · rw [hp, Network.log_append, Network.polled_append, ← hn, hlog]
  · refine ⟨as ++ [.poll], ?_, ?_⟩
    · rw [hn', hn, Network.after_append]
      rfl
    · rw [hp, hn, Network.log_append, Network.polled_append]
      exact congrArg _ (List.append_nil _).symm

/-- No connection is open under an id that is still to be given out. -/
lemma isOpen_unborn {ports : PortSource} {mvs : List (Move κ)} {es : History κ} {w : Moment κ}
    (hr : (initial ports).run mvs = some (es, w)) {c : SocketId} (hc : w.network.nextId ≤ c.num) :
    w.network.isOpen c = false := by
  obtain ⟨as, hn, -⟩ := actions_run hr
  have hborn : Network.Unborn (Network.initial.log as) (Network.initial.after as) :=
    Network.after_invariant (fun _ _ a h => h.perform a) as [] Network.unborn_initial
  rw [hn] at hc ⊢
  exact (hborn c hc).2.1

lemma reported_run {ports : PortSource} {mvs : List (Move κ)} {es : History κ} {w : Moment κ}
    (hr : (initial ports).run mvs = some (es, w)) : ∃ as, w.network = Network.initial.after as ∧
      reported ((initial ports).trace mvs) w.network =
        Network.heard (Network.initial.log as) (Network.initial.after as) := by
  obtain ⟨as, hn, hp⟩ := actions_run hr
  exact ⟨as, hn, by rw [reported, hp, hn, Network.heard]⟩

end Moment

end BoundedStreams
