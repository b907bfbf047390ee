import BoundedStreams.Proofs.Sessions
import BoundedStreams.Proofs.Waiting

/-! Calls that come to nothing: they fail, or find nothing to read, to claim or to close, or ask for what is
not supported. All that is left of them is a note. -/

namespace BoundedStreams

namespace Call

/-- The reply tells that the call to the manager `m` came to nothing. -/
def Futile {κ : Type} (m : Manager κ) : Call Handle κ → Reply → Prop
  | .openListener _, .opened (.error _) => True
  | .accept, .claimed none => True
  | .arm _ _ _, .armed (.error _) => True
  | .read _ _, .read (.error _) => True
  | .read _ _, .read (.ok bytes) => bytes = []
  | .write _ _, .written (.error _) => True
  | .closeListener, .done => m.listener = none
  | .close h, .done => m.streams.get? h = none
  | .closeOutput _, .done => True
  | _, _ => False

/-- Whether the network offered a port of its own and it turned out to be taken. -/
def Reply.spendsPort : Reply → Bool
  | .opened (.error (.bind p _)) => p = 0
  | _ => false

end Call

namespace Site

variable {κ : Type}

/-- The sites differ in their notes, and in a port of the network's own if one was spent. -/
structure Spares (spent : Bool) (s s' : Site κ) : Prop where
  manager : s'.manager = s.manager
  network : s'.network =
    if spent then { s.network with nextPort := s.network.nextPort + 1 } else s.network
  metrics : s'.journal.metrics = s.journal.metrics

lemma spares_self (s : Site κ) : Spares false s s := ⟨rfl, rfl, rfl⟩

lemma spares_note (s : Site κ) (n : Note) : Spares false s (s.note n) := ⟨rfl, rfl, rfl⟩

lemma network_bind_of_error {n : Network} {p : Port} {cause : PortTaken}
    (h : (n.bind p).1 = .error cause) :
    (n.bind p).2 = if p = 0 then { n with nextPort := n.nextPort + 1 } else n := by
  have hassign : (n.assignPort p).2 =
      if p = 0 then { n with nextPort := n.nextPort + 1 } else n := by
    rw [Network.assignPort]
    split <;> rfl
  rw [Network.bind] at h ⊢
  dsimp only at h ⊢
  split at h
  · next htaken => rw [if_pos htaken, hassign]
  · cases h

lemma spares_openListener {s : Site κ} {callback : κ} {e : ListenerError}
    (h : (s.openListener callback).1 = .error e) :
    Spares (Call.Reply.opened (.error e)).spendsPort s (s.openListener callback).2 := by
  rw [openListener] at h ⊢
  dsimp only at h ⊢
  split at h
  · next hopen =>
    cases h
    rw [if_pos hopen]
    exact s.spares_self
  · next hopen =>
    rw [if_neg hopen]
    have hnet := @network_bind_of_error s.network s.manager.port
    split at h
    · next cause n hbind =>
      cases h
      rw [hbind] at hnet
      refine ⟨rfl, (hnet rfl).trans ?_, rfl⟩
      by_cases hp : s.manager.port = 0 <;> simp [Call.Reply.spendsPort, hp]
    · cases h

lemma spares_accept {s : Site κ} (h : s.accept.1 = none) : Spares false s s.accept.2 := by
  rw [accept] at h ⊢
  dsimp only at h ⊢
  split at h
  · next hfull =>
    rw [if_pos hfull]
    exact s.spares_note _
  · next hroom =>
    rw [if_neg hroom]
    split at h
    · exact s.spares_self
    · cases h

lemma spares_close {s : Site κ} {h : Handle} (hh : s.manager.streams.get? h = none) :
    Spares false s (s.close h) := by
  simp only [close, hh]
  exact s.spares_note _

lemma spares_arm {s : Site κ} {h : Handle} {want : Interests} {callback : Option κ} {e : StreamError}
    (he : (s.arm h want callback).1 = .error e) : Spares false s (s.arm h want callback).2 := by
  rw [arm] at he ⊢
  cases hr : s.manager.streams.get? h with
  | none => exact s.spares_note _
  | some r =>
    simp only [hr] at he
    split at he
    · cases he
    · split at he <;> cases he

/-- A read that takes no byte does not count as activity and arms no timer. -/
lemma spares_read {s : Site κ} {h : Handle} {k : Nat}
    (he : ∀ bytes, (s.read h k).1 = .ok bytes → bytes = []) : Spares false s (s.read h k).2 := by
  cases hr : s.manager.streams.get? h with
  | none =>
    simp only [read, hr]
    exact s.spares_note _
  | some r =>
    have hread := reads hr k
    generalize s.read h k = a at he hread ⊢
    cases hread with
    | lost hc => exact s.spares_self
    | dry c hc hd => exact s.spares_self
    | bytes c q due s' hc hq hne hq' ho => exact absurd (he _ rfl) hne

lemma spares_write {s : Site κ} {h : Handle} {bytes : Bytes} {e : StreamError}
    (he : (s.write h bytes).1 = .error e) : Spares false s (s.write h bytes).2 := by
  cases hr : s.manager.streams.get? h with
  | none =>
    simp only [write, hr]
    exact s.spares_note _
  | some r =>
    have hwrite := writes hr bytes
    generalize s.write h bytes = a at he hwrite ⊢
    cases hwrite with
    | lost hc => exact s.spares_self
    | full c hc hf => exact s.spares_self
    | queued c n s' hc hn hq ho => cases he

lemma spares_call {s : Site κ} {call : Call Handle κ}
    (hf : call.Futile s.manager (call.perform s).1) :
    Spares (call.perform s).1.spendsPort s (call.perform s).2 := by
  cases call with
  | openListener callback =>
    have hopen := @spares_openListener κ s callback
    simp only [Call.perform] at hf ⊢
    generalize s.openListener callback = a at hf hopen ⊢
    obtain ⟨result, s'⟩ := a
    cases result with
    | error e => exact hopen rfl
    | ok _ => cases hf
  | closeListener =>
    have hnone : s.manager.listener = none := hf
    simp only [Call.perform, closeListener_of_none hnone]
    exact s.spares_self
  | accept =>
    have haccept := @spares_accept κ s
    simp only [Call.perform] at hf ⊢
    generalize s.accept = a at hf haccept ⊢
    obtain ⟨claimed, s'⟩ := a
    cases claimed with
    | none => exact haccept rfl
    | some h => cases hf
  | close h => exact spares_close hf
  | closeOutput h => exact s.spares_note _
  | arm h want callback =>
    have harm := @spares_arm κ s h want callback
    simp only [Call.perform] at hf ⊢
    generalize s.arm h want callback = a at hf harm ⊢
    obtain ⟨result, s'⟩ := a
    cases result with
    | error e => exact harm rfl
    | ok _ => cases hf
  | read h k =>
    have hread := @spares_read κ s h k
    simp only [Call.perform] at hf ⊢
    generalize s.read h k = a at hf hread ⊢
    obtain ⟨result, s'⟩ := a
    refine hread ?_
    rintro bytes rfl
    exact hf
  | write h bytes =>
    have hwrite := @spares_write κ s h bytes
    simp only [Call.perform] at hf ⊢
    generalize s.write h bytes = a at hf hwrite ⊢
    obtain ⟨result, s'⟩ := a
    cases result with
    | error e => exact hwrite rfl
    | ok n => cases hf
  | port | state h | stats => cases hf

end Site

namespace Moment

variable {κ : Type}

lemma managers_put {w : Moment κ} {i : Nat} {s s' : Site κ} (hs : w.site? i = some s)
    (hm : s'.manager = s.manager) : (w.put i s').managers = w.managers := by
  have hself := congrArg Moment.managers (put_self hs)
  simpa only [put, hm] using hself

/-- A call that comes to nothing, inside a callback or outside, leaves every manager, every turn, the metrics
and the network as they were. The one trace besides its note is a port that the network offered of its own
and that was taken. -/
theorem futile_calls_spare {w w' : Moment κ} {i : Nat} {m : Manager κ} {call : Call Handle κ}
    {reply : Call.Reply} (hm : w.manager? i = some m)
    (hstep : w.step (.call i call) = some (.call reply, w')) (hf : call.Futile m reply) :
    w'.managers = w.managers ∧ w'.frames = w.frames ∧ w'.ports = w.ports ∧
      w'.journal.metrics = w.journal.metrics ∧
      w'.network = if reply.spendsPort then
        { w.network with nextPort := w.network.nextPort + 1 } else w.network := by
  have hst := step_cases hstep
  generalize ho : Outcome.call reply = o at hst
  cases hst with
  | call i call s hact hs =>
    cases ho
    obtain ⟨hm', hn, hj⟩ := (w.site?_eq_some_iff i s).mp hs
    rw [hm] at hm'
    cases hm'
    have hspares := Site.spares_call hf
    exact ⟨managers_put hs hspares.manager, rfl, rfl, hj ▸ hspares.metrics, hn ▸ hspares.network⟩

/-- In the callback of an offer on port 40000 another manager asks for any port. -/
def crowded : List (Move Unit) :=
  [.create ⟨some 40000, 1, 1, 0, 0, 0, 64, 0⟩, .call 0 (.openListener ()),
    .create ⟨none, 1, 1, 0, 0, 0, 64, 0⟩, .network (.connect 40000),
    .begin 0, .proceed, .proceed, .proceed, .proceed]

theorem futile_calls_spare_crowded : ∃ es w w' m reply,
    (initial .assignedByNetwork).run crowded = some (es, w) ∧ w.frames.length = 1 ∧
      w.manager? 1 = some m ∧
      w.step (.call 1 (.openListener ())) = some (.call reply, w') ∧
      (Call.openListener () : Call Handle Unit).Futile m reply ∧ reply.spendsPort = true ∧
      w'.managers = w.managers ∧ w'.frames = w.frames ∧ w'.ports = w.ports ∧
      w'.journal.metrics = w.journal.metrics ∧
      w'.network = { w.network with nextPort := 40001 } := by
  have hrun : ∃ es w w' m, (initial .assignedByNetwork).run crowded = some (es, w) ∧
      w.frames.length = 1 ∧ w.manager? 1 = some m ∧ w.network.nextPort = 40000 ∧
      w.step (.call 1 (.openListener ())) =
        some (.call (.opened (.error (.bind 0 ⟨40000⟩))), w') :=
    ⟨_, _, _, _, rfl, rfl, rfl, rfl, rfl⟩
  obtain ⟨es, w, w', m, hr, hframes, hm, hport, hstep⟩ := hrun
  obtain ⟨hmanagers, hframes', hports, hmetrics, hnet⟩ := futile_calls_spare hm hstep trivial
  refine ⟨es, w, w', m, _, hr, hframes, hm, hstep, trivial, rfl, hmanagers, hframes', hports,
    hmetrics, hnet.trans ?_⟩
  rw [hport]
  rfl

end Moment

end BoundedStreams
