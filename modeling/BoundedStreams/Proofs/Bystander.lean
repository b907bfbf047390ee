import BoundedStreams.Proofs.Conversation
import BoundedStreams.Proofs.Front

/-! What the answers of the echo service and the jobs of its turns leave alone: the clock, and every stream
other than the one that they are about, with its session and its connection. -/

namespace BoundedStreams

namespace Network

lemma Sheds.overrun {n n' : Network} (h : n.Sheds n') : n'.overrun = n.overrun := by
  obtain ⟨cs, rfl⟩ := h
  induction cs generalizing n with
  | nil => rfl
  | cons c cs ih =>
    refine ih.trans ?_
    rw [close]
    split <;> rfl

lemma overrun_bind (n : Network) (p : Port) : (n.bind p).2.overrun = n.overrun := by
  obtain ⟨q, k, ls, -, hn⟩ := n.bind_frame p
  rw [hn]

lemma overrun_recv (n : Network) (c : SocketId) (k : Nat) : (n.recv c k).2.overrun = n.overrun := by
  rw [recv]
  split <;> rfl

lemma overrun_schedule {n : Network} {d : Nat} (hd : n.clock + d ≤ Duration.greatest) (c : SocketId) :
    (n.schedule c d).overrun = n.overrun := by
  rw [schedule, Duration.after?, if_pos hd]
  rfl

lemma get?_foldl_close_of_not_mem {c : SocketId} (cs : List SocketId) (n : Network) (hc : c ∉ cs) :
    (cs.foldl close n).get? c = n.get? c := by
  induction cs generalizing n with
  | nil => rfl
  | cons d cs ih =>
    rw [List.mem_cons, not_or] at hc
    rw [List.foldl_cons, ih _ hc.2, get?_close, if_neg (Ne.symm hc.1)]

end Network

/-- How many connections were admitted, and how many refused. -/
def Manager.verdicts {κ : Type} (m : Manager κ) : Nat × Nat := (m.totals.accepted, m.totals.rejected)

lemma Manager.verdicts_of_front {κ : Type} {m : Manager κ} {f : Front κ} (h : m.front = f) :
    m.verdicts = (f.accepted, f.rejected) := by
  rw [← h]
  rfl

namespace Site

variable {κ : Type} {s s' : Site κ} {g h : Handle}

/-! ### The clock -/

/-- No time passed, nobody connected or was let in, and no deadline was out of range if one after the push
delay is not. -/
structure Timely (s s' : Site κ) : Prop where
  options : s'.manager.options = s.manager.options
  now : s'.now = s.now
  awaiting : awaiting s'.network.queue = awaiting s.network.queue
  verdicts : s'.manager.verdicts = s.manager.verdicts
  overrun : s.now + s.manager.options.activePushDelay ≤ Duration.greatest →
    s'.network.overrun = s.network.overrun

lemma Timely.refl (s : Site κ) : s.Timely s := ⟨rfl, rfl, rfl, rfl, fun _ => rfl⟩

lemma Timely.trans {s₁ s₂ s₃ : Site κ} (h : s₁.Timely s₂) (h' : s₂.Timely s₃) : s₁.Timely s₃ := by
  refine ⟨h'.options.trans h.options, h'.now.trans h.now, h'.awaiting.trans h.awaiting,
    h'.verdicts.trans h.verdicts, fun hd => ?_⟩
  have hd' : s₂.now + s₂.manager.options.activePushDelay ≤ Duration.greatest := by
    rw [h.now, h.options]
    exact hd
  exact (h'.overrun hd').trans (h.overrun hd)

lemma Timely.of_sheds (hd : ∃ ds, Did ds s s') (hn : s.Sheds s')
    (hv : s'.manager.verdicts = s.manager.verdicts) : s.Timely s' := by
  obtain ⟨ds, hd⟩ := hd
  exact ⟨hd.options, hn.clock, hn.awaiting, hv, fun _ => hn.overrun⟩

lemma overrun_read (hd : s.now + s.manager.options.activePushDelay ≤ Duration.greatest) (h : Handle)
    (k : Nat) : (s.read h k).2.network.overrun = s.network.overrun := by
  rw [read]
  split
  · rfl
  · split
    · rfl
    · next c hc =>
      split
      · rfl
      · show Network.overrun (if _ then _ else _) = _
        split
        · have hclock : (s.network.recv c k).2.clock + s.manager.options.activePushDelay ≤
              Duration.greatest := by
            rw [s.network.clock_recv]
            exact hd
          exact (Network.overrun_schedule hclock c).trans (s.network.overrun_recv c k)
        · exact s.network.overrun_recv c k

lemma verdicts_call (s : Site κ) (c : Call Handle κ) :
    (c.perform s).2.manager.verdicts = s.manager.verdicts := by
  cases c with
  | openListener callback =>
    rcases s.front_openListener callback with hf | ⟨-, l, hf⟩ <;> exact Manager.verdicts_of_front hf
  | closeListener =>
    rcases s.front_closeListener with ⟨-, hf⟩ | ⟨-, hf⟩ <;> exact Manager.verdicts_of_front hf
  | port | closeOutput h | state h | stats => rfl
  | accept =>
    simp only [Call.perform, accept]
    split
    · rfl
    · split <;> rfl
  | close h =>
    rcases s.front_close h with ⟨-, hf⟩ | ⟨c, t, -, hf⟩ <;> exact Manager.verdicts_of_front hf
  | arm h want callback => exact Manager.verdicts_of_front (s.front_arm h want callback)
  | read h k =>
    rcases s.front_read h k with ⟨hf, -⟩ | ⟨bytes, c, t, -, -, hf⟩ <;> exact Manager.verdicts_of_front hf
  | write h bytes => exact Manager.verdicts_of_front (s.front_write h bytes)

lemma verdicts_next {a : Agenda} (hm : s.manager.Coherent) (ha : awaiting a.batch = []) :
    (a.next s).2.1.manager.verdicts = s.manager.verdicts := by
  rcases a with (_ | ⟨⟨c, k⟩, es⟩) | (_ | ⟨h, hs⟩) | _
  · rfl
  · cases k with
    | accepted l => cases ha
    | closed =>
      rcases front_onClosed c hm with ⟨-, hf⟩ | ⟨-, hf⟩ | ⟨h, t, -, -, hf⟩ <;>
        exact Manager.verdicts_of_front hf
    | received | sent | timer | poll =>
      simp only [Agenda.next, handle]
      split
      · next h _ => exact Manager.verdicts_of_front (s.front_evaluate h)
      · rfl
  · rcases s.front_offerPending with ⟨-, hf, -⟩ | ⟨l, p, b, -, -, -, -, hf⟩ <;>
      exact Manager.verdicts_of_front hf
  · exact Manager.verdicts_of_front (s.front_deliverEnd h)
  · rfl

lemma timely_call (s : Site κ) (c : Call Handle κ) : s.Timely (c.perform s).2 := by
  obtain ⟨ds, hds, -⟩ := s.did_call c
  refine ⟨hds.options, s.now_call c, hds.traffic.1, s.verdicts_call c, fun hd => ?_⟩
  cases c with
  | openListener callback =>
    have hbind := s.network.overrun_bind s.manager.port
    simp only [Call.perform, openListener]
    split
    · rfl
    · split <;> next heq => rwa [heq] at hbind
  | closeListener =>
    rw [Call.perform, closeListener]
    split
    · rfl
    · next l hl =>
      let s₁ : Site κ := { s with
        network := s.network.closeListener l.socket
        manager := { s.manager with listener := none, backlog := [] } }
      exact (sheds_aborts s.manager.backlog.sockets s₁).overrun
  | accept => exact congrArg Network.overrun s.network_accept
  | close h => exact (s.sheds_close h).overrun
  | arm h want callback => exact congrArg Network.overrun (s.network_arm h want callback)
  | read h k => exact overrun_read hd h k
  | write h bytes =>
    simp only [Call.perform, write]
    split
    · rfl
    · split
      · rfl
      · split <;> rfl
  | port | closeOutput h | state h | stats => rfl

lemma Tends.timely (ht : s.Tends g s') : s.Timely s' := by
  induction ht with
  | refl => exact .refl s
  | @call t c hc _ ih => exact ih.trans (t.timely_call c)
  | note n _ ih => exact ⟨ih.options, ih.now, ih.awaiting, ih.verdicts, ih.overrun⟩

lemma timely_next {a : Agenda} (ha : awaiting a.batch = []) (hm : s.manager.Coherent)
    (hd : s.manager.depth = 0) : s.Timely (a.next s).2.1 := by
  obtain ⟨ds, hds, -⟩ := a.did_next s hd hm.record
  exact .of_sheds ⟨ds, hds⟩ (s.sheds_next a) (verdicts_next hm ha)

lemma timely_leave (s : Site κ) : s.Timely s.leave :=
  .of_sheds ⟨_, Does.did (.leave (.refl _))⟩ s.sheds_leave (Manager.verdicts_of_front s.front_leave)

/-! ### The other streams -/

/-- The stream under `h` and its connection are as they were. -/
structure Beside (h : Handle) (s s' : Site κ) : Prop where
  treats : Treats h .spare s s'
  network : ∀ r c, s.manager.streams.get? h = some r → r.socket = some c →
    s'.network.get? c = s.network.get? c

lemma Beside.record (hb : Beside h s s') :
    s'.manager.streams.get? h = s.manager.streams.get? h := by
  cases hb.treats.course with
  | spare hr he => exact hr

lemma Beside.ending (hb : Beside h s s') : h ∈ s'.manager.ending ↔ h ∈ s.manager.ending := by
  cases hb.treats.course with
  | spare hr he => exact he

lemma Beside.trans {s₁ s₂ s₃ : Site κ} (hb : Beside h s₁ s₂) (hb' : Beside h s₂ s₃) :
    Beside h s₁ s₃ where
  treats := ⟨hb'.treats.turns.trans hb.treats.turns,
    .spare (hb'.record.trans hb.record) (hb'.ending.trans hb.ending)⟩
  network r c hr hc := (hb'.network r c (hb.record.trans hr) hc).trans (hb.network r c hr hc)

lemma Beside.of_quiet (hq : s.Quiet s') (hn : ∀ r c, s.manager.streams.get? h = some r →
    r.socket = some c → s'.network.get? c = s.network.get? c) : Beside h s s' :=
  ⟨hq.treats h, hn⟩

def Separate (s : Site κ) (g h : Handle) : Prop :=
  ∀ r q c, s.manager.streams.get? h = some r → r.socket = some c →
    s.manager.streams.get? g = some q → q.socket ≠ some c

lemma socket_of_uses {c : Call Handle κ} (hc : c.uses g = true) {q' : Stream κ}
    (hq' : (c.perform s).2.manager.streams.get? g = some q') :
    ∃ q, s.manager.streams.get? g = some q ∧ q'.socket = q.socket := by
  cases c with
  | openListener callback | closeListener | port | accept | closeOutput k | state k | stats => cases hc
  | close k =>
    obtain rfl : k = g := by simpa [Call.uses] using hc
    have hget : (s.close k).manager.streams.get? k = some q' := hq'
    rw [get?_close, if_pos rfl] at hget
    cases hget
  | arm k want callback =>
    rcases s.treats_arm k g want callback with ⟨-, ht⟩ | ⟨-, -, ht | ⟨-, ht⟩⟩
    · cases ht.course with
      | spare hr he => exact ⟨q', hr ▸ hq', rfl⟩
    · cases ht.course with
      | arm want cb q hq hq'' hw he =>
        have hget := hq''.symm.trans hq'
        cases hget
        exact ⟨q, hq, rfl⟩
    · cases ht.course with
      | free q hq hq'' he =>
        have hget := hq''.symm.trans hq'
        cases hget
  | read k n =>
    rcases s.treats_read k g n with ht | ⟨-, ht⟩
    · cases ht.course with
      | spare hr he => exact ⟨q', hr ▸ hq', rfl⟩
    · cases ht.course with
      | touch q hq hne hq'' he =>
        have hget := hq''.symm.trans hq'
        cases hget
        exact ⟨q, hq, rfl⟩
  | write k bytes => exact ⟨q', (s.quiet_write k bytes).streams ▸ hq', rfl⟩

lemma beside_call {c : Call Handle κ} (hc : c.uses g = true) (hne : g ≠ h) (hs : s.Separate g h) :
    Beside h s (c.perform s).2 := by
  have hg : ∀ {r d}, s.manager.streams.get? h = some r → r.socket = some d →
      ∀ q, s.manager.streams.get? g = some q → q.socket ≠ some d := fun hr hd q hq => hs _ q _ hr hd hq
  cases c with
  | openListener callback | closeListener | port | accept | closeOutput k | state k | stats => cases hc
  | close k =>
    obtain rfl : k = g := by simpa [Call.uses] using hc
    refine ⟨?_, fun r d hr hd => get?_close_of_ne (hg hr hd)⟩
    rcases s.treats_close k h with ⟨-, ht⟩ | ⟨he, -⟩
    · exact ht
    · exact absurd he hne
  | arm k want callback =>
    obtain rfl : k = g := by simpa [Call.uses] using hc
    refine ⟨?_, fun r d hr hd => congrArg (Network.get? · d) (s.network_arm k want callback)⟩
    rcases s.treats_arm k h want callback with ⟨-, ht⟩ | ⟨he, -⟩
    · exact ht
    · exact absurd he hne
  | read k n =>
    obtain rfl : k = g := by simpa [Call.uses] using hc
    refine ⟨?_, fun r d hr hd => get?_read_of_ne (hg hr hd) n⟩
    rcases s.treats_read k h n with ht | ⟨he, -⟩
    · exact ht
    · exact absurd he hne
  | write k bytes =>
    obtain rfl : k = g := by simpa [Call.uses] using hc
    exact .of_quiet (s.quiet_write k bytes) fun r d hr hd => get?_write_of_ne (hg hr hd) bytes

lemma Tends.beside (ht : s.Tends g s') (hne : g ≠ h) (hs : s.Separate g h) : Beside h s s' := by
  suffices hboth : Beside h s s' ∧ s'.Separate g h from hboth.1
  induction ht with
  | refl => exact ⟨⟨(Quiet.refl s).treats h, fun _ _ _ _ => rfl⟩, hs⟩
  | @call t c hc _ ih =>
    obtain ⟨hb, hst⟩ := ih
    have hone := beside_call hc hne hst
    refine ⟨hb.trans hone, fun r q' d hr hd hq' => ?_⟩
    obtain ⟨q, hq, hsocket⟩ := socket_of_uses hc hq'
    rw [hsocket]
    exact hst r q d (hone.record ▸ hr) hd hq
  | note n _ ih => exact ⟨⟨ih.1.treats.trans_quiet (quiet_note _ n), ih.1.network⟩, ih.2⟩

lemma Tends.descends (ht : s.Tends g s') : s.manager.streams.Descends s'.manager.streams := by
  induction ht with
  | refl => exact .refl _
  | @call t c hc _ ih =>
    obtain ⟨ds, hds, hall⟩ := t.did_call c
    refine ih.trans (hds.descends fun d hd => Moment.call_allows_claimed (hall d hd) ?_)
    rintro rfl
    cases hc
  | note n _ ih => exact ih

end Site

namespace Echo

open Daemon

variable {κ : Type} {t : SocketId → Talk} {me : κ} {ports : PortSource} {g h : Handle}

/-! ### The memory of the service -/

/-- What an answer can make of the memory of the service that is about the session `g` alone. -/
inductive Edits (g : Handle) (e : Echo) : Echo → Prop where
  | refl : Edits g e e
  | count {f : Echo} (n : Nat) (h : Edits g e f) : Edits g e (f.countEchoed n)
  | keep {f : Echo} (l : Bytes) (hl : (f.sessions.get? g).isSome = true) (h : Edits g e f) :
      Edits g e (f.keep g l)
  | close {f : Echo} (h : Edits g e f) : Edits g e (f.closeSession g)

lemma Edits.trans {e₁ e₂ e₃ : Echo} (h : Edits g e₁ e₂) (h' : Edits g e₂ e₃) : Edits g e₁ e₃ := by
  induction h' with
  | refl => exact h
  | count n _ ih => exact .count n ih
  | keep l hl _ ih => exact .keep l hl ih
  | close _ ih => exact .close ih

lemma Edits.others {e e' : Echo} (he : Edits g e e') (hne : g ≠ h) :
    e'.sessions.get? h = e.sessions.get? h ∧ e.stats.bytesEchoed ≤ e'.stats.bytesEchoed := by
  induction he with
  | refl => exact ⟨rfl, Nat.le_refl _⟩
  | count n _ ih => exact ⟨ih.1, Nat.le_trans ih.2 (Nat.le_add_right _ n)⟩
  | keep l hl _ ih => exact ⟨((Table.get?_set _ g h l).trans (if_neg hne)).trans ih.1, ih.2⟩
  | @close f _ ih =>
    refine ⟨((f.get?_closeSession g h).trans (if_neg hne)).trans ih.1, ?_⟩
    rw [closeSession]
    split <;> exact ih.2

lemma edits_settle (self : κ) (g : Handle) (r : Option Interests × Site κ × Echo) :
    r.2.2.Edits g (settle self g r).2 := by
  obtain ⟨next, s, e⟩ := r
  cases next with
  | none => exact .close .refl
  | some want =>
    rw [settle]
    dsimp only
    split
    · exact .refl
    · exact .close .refl

lemma edits_onEvent (self : κ) (event : StreamEvent) {w : Site κ × Echo}
    (hl : (w.2.sessions.get? g).isSome = true) : w.2.Edits g (onEvent self g event w).2 := by
  cases event with
  | readable =>
    rw [onEvent_readable]
    refine Edits.trans ?_ (edits_settle self g _)
    rw [onReadable]
    split
    · exact .refl
    · exact .refl
    · exact .refl
    · split
      · exact .refl
      · next n _ _ =>
        dsimp only
        split
        · exact .count n .refl
        · exact .keep _ hl (.count n .refl)
  | writable =>
    rw [onEvent_writable]
    refine Edits.trans ?_ (edits_settle self g _)
    rw [onWritable]
    split
    · exact .refl
    · exact .refl
    · split
      · exact .keep _ hl .refl
      · next n _ _ => exact .keep _ hl (.count n .refl)

/-- The service claims a connection and opens its session, or does nothing. -/
lemma onOffer_cases (self : κ) (w : Site κ × Echo) :
    w.1.accept.1 = none ∧ onOffer self w = (w.1.accept.2, w.2) ∨
      ∃ k, w.1.accept.1 = some k ∧ w.1.accept.2.Tends k (onOffer self w).1 ∧
        (w.2.openSession k).Edits k (onOffer self w).2 := by
  rw [onOffer]
  rcases w.1.accept with ⟨_ | k, s⟩
  · exact .inl ⟨rfl, rfl⟩
  · refine .inr ⟨k, rfl, ?_⟩
    have harm := Site.Tends.note (.sessionStarted k) .refl |>.trans
      (tends_arm k .read (some self) (s.note (.sessionStarted k)))
    dsimp only
    split
    · next t ht =>
      rw [ht] at harm
      exact ⟨harm, .refl⟩
    · next cause t ht =>
      rw [ht] at harm
      exact ⟨(Site.Tends.note (.sessionUnarmed k cause) harm).trans (tends_endSession k (_, _)),
        .close .refl⟩

/-! ### Jobs with their answers -/

structure Apart (h : Handle) (p p' : Site κ × Echo) : Prop where
  site : Site.Beside h p.1 p'.1
  session : p'.2.sessions.get? h = p.2.sessions.get? h
  echoed : p.2.stats.bytesEchoed ≤ p'.2.stats.bytesEchoed

variable (me) in
lemma orderly_answer {a b : Agenda} {s s₁ : Site κ} {n : Notice κ} (e : Echo)
    (hw : (alone s ports [⟨0, a, none⟩]).Orderly) (hjob : a.next s = (some b, s₁, some n)) :
    (alone (consumer me n (s₁.enter, e)).1 ports [⟨0, b, some n⟩]).Orderly :=
  orderly_of_reaches (orderly_job hw hjob) (Moment.reaches_acts (w := alone s₁ ports [])
    Nat.zero_lt_one [] (plain_consumer me n (s₁.enter, e)) b n)

lemma beside_leave {s : Site κ} {fs : List (Frame κ)} (hw : (alone s ports fs).Orderly)
    (h : Handle) : s.Beside h s.leave := by
  refine .of_quiet s.quiet_leave fun r c hr hc => ?_
  have hdeferred := (not_mem_of_orderly hw hr hc).2
  rw [Site.leave]
  dsimp only
  split
  · exact Network.get?_foldl_close_of_not_mem _ _ hdeferred
  · rfl

lemma separate_of_coherent {s : Site κ} (hm : s.manager.Coherent) (hne : g ≠ h) :
    s.Separate g h :=
  fun _ _ _ hr hc hq hqc => hne (hm.eq_of_socket hr hc hq hqc)

variable (me) in
lemma apart_onOffer {s : Site κ} {b : Agenda} {n : Notice κ} (e : Echo)
    (hw : (alone s ports [⟨0, b, some n⟩]).Orderly) {r : Stream κ}
    (hr : s.manager.streams.get? h = some r) : Apart h (s, e) (onOffer me (s, e)) := by
  have hm := hw.coherent 0 s.manager rfl
  have haccept : s.Beside h s.accept.2 := by
    refine ⟨?_, fun r c hr hc => by rw [s.network_accept]⟩
    rcases s.treats_accept hm.arena h with ⟨-, ht⟩ | ⟨-, ht⟩
    · exact ht
    · cases ht.course with
      | claim c hno hr' he =>
        rw [hr] at hno
        cases hno
  rcases onOffer_cases me (s, e) with ⟨-, heq⟩ | ⟨k, hk, htends, hedits⟩
  · rw [heq]
    exact ⟨haccept, rfl, Nat.le_refl _⟩
  · have hne : k ≠ h := by
      rintro rfl
      rcases s.treats_accept hm.arena k with ⟨hno, -⟩ | ⟨-, ht⟩
      · exact hno hk
      · cases ht.course with
        | claim c hno hr' he =>
          rw [hr] at hno
          cases hno
    have hsite : (alone s ports [⟨0, b, some n⟩]).site? 0 = some s := rfl
    have hm' : s.accept.2.manager.Coherent :=
      (orderly_of_reaches hw (.step _ _ (Moment.step_call rfl hsite .accept))).coherent 0 _ rfl
    obtain ⟨hsession, hechoed⟩ := hedits.others hne
    exact ⟨haccept.trans (htends.beside hne (separate_of_coherent hm' hne)),
      hsession.trans ((Table.get?_set _ k h []).trans (if_neg hne)), hechoed⟩

section Jobs

variable {a b : Agenda} {job : Site κ → Site κ × Option (Notice κ)} {p : Site κ × Echo}
  (hw : Underway t me ports a p.1 p.2) (hjob : a.next p.1 = (some b, job p.1))

include hw hjob

/-- After a job the service answers an event of the stream under `h`, or leaves that stream alone. -/
lemma Underway.serve_cases {r : Stream κ} (hr : (job p.1).1.manager.streams.get? h = some r) :
    (∃ cb event, (job p.1).2 = some (.event cb h event) ∧ Site.serve (consumer me) job p =
        ((onEvent me h event ((job p.1).1.enter, p.2)).1.leave,
          (onEvent me h event ((job p.1).1.enter, p.2)).2)) ∨
      told? (job p.1).2 ≠ some h ∧
        Apart h ((job p.1).1, p.2) (Site.serve (consumer me) job p) := by
  have hdue := fun (cb : κ) (h : Handle) (event : StreamEvent)
    (hn : (a.next p.1).2.2 = some (.event cb h event)) => hw.faithful.due hw.coherent hn
  rw [hjob] at hdue
  rw [Site.serve]
  rcases hj : job p.1 with ⟨s₁, _ | n⟩ <;> rw [hj] at hjob hr hdue
  · exact .inr ⟨by simp [told?], ⟨(Site.Quiet.refl s₁).treats h, fun _ _ _ _ => rfl⟩, rfl, Nat.le_refl _⟩
  have hin := orderly_job hw.orderly hjob
  have henter : s₁.Beside h s₁.enter := .of_quiet s₁.quiet_enter fun _ _ _ _ => rfl
  have hleave := beside_leave (orderly_answer me p.2 hw.orderly hjob) h
  cases n with
  | offer cb =>
    have hanswer := apart_onOffer me p.2 hin hr
    exact .inr ⟨by simp [told?], (henter.trans hanswer.site).trans hleave, hanswer.session, hanswer.echoed⟩
  | event cb g event =>
    by_cases hne : g = h
    · subst hne
      exact .inl ⟨cb, event, rfl, rfl⟩
    · have hm : s₁.enter.manager.Coherent := hin.coherent 0 _ rfl
      have hanswer := (tends_onEvent me g event (s₁.enter, p.2)).beside hne (separate_of_coherent hm hne)
      obtain ⟨q, l, -, hl, -⟩ := hdue cb g event rfl
      have hlive : (p.2.sessions.get? g).isSome = true := by rw [hl]; rfl
      have hedits := edits_onEvent me event (w := (s₁.enter, p.2)) hlive
      obtain ⟨hsession, hechoed⟩ := hedits.others hne
      refine .inr ⟨fun he => hne (Option.some.inj he), ?_, hsession, hechoed⟩
      exact (henter.trans hanswer).trans hleave

lemma Underway.timely (ha : awaiting a.batch = []) :
    p.1.Timely (Site.serve (consumer me) job p).1 := by
  have hnext := Site.timely_next ha hw.coherent hw.depth
  rw [hjob] at hnext
  rw [Site.serve]
  rcases hj : job p.1 with ⟨s₁, _ | n⟩ <;> rw [hj] at hnext
  · exact hnext
  · have henter : s₁.Timely s₁.enter := ⟨rfl, rfl, rfl, rfl, fun _ => rfl⟩
    have hanswer : s₁.enter.Timely (consumer me n (s₁.enter, p.2)).1 := by
      cases n with
      | offer cb =>
        have haccept := s₁.enter.timely_call .accept
        rcases onOffer_cases me (s₁.enter, p.2) with ⟨-, heq⟩ | ⟨k, -, htends, -⟩
        · rw [consumer, heq]
          exact haccept
        · exact haccept.trans htends.timely
      | event cb g event => exact (tends_onEvent me g event (s₁.enter, p.2)).timely
    exact ((hnext.trans henter).trans hanswer).trans (Site.timely_leave _)

end Jobs

end Echo

end BoundedStreams
