import BoundedStreams.Proofs.Sessions

/-! The echo service loses no byte, doubles none and keeps their order, however slowly its peers read. -/

namespace BoundedStreams

namespace Echo

open Daemon

variable {κ : Type} {t t' : SocketId → Talk} {me : κ} {ports : PortSource} {s s' : Site κ} {e : Echo}

/-! ### Turns -/

/-- The connection of a stream neither waits to be claimed nor is to be aborted. -/
lemma not_mem_of_orderly {fs : List (Frame κ)} (hw : (alone s ports fs).Orderly) {h : Handle}
    {r : Stream κ} {c : SocketId} (hr : s.manager.streams.get? h = some r) (hc : r.socket = some c) :
    c ∉ s.manager.backlog.sockets ∧ c ∉ s.manager.deferred :=
  hw.not_mem_deferred (i := 0) (j := 0) rfl ((hw.coherent 0 _ rfl).mem_keys hr hc) rfl

lemma owns_of_orderly {a : Agenda} {n : Option (Notice κ)} (hw : (alone s ports [⟨0, a, n⟩]).Orderly)
    (h : Handle) : Owns s a.batch h := by
  intro r c hr hc
  have hsite : (alone s ports [⟨0, a, n⟩]).manager? 0 = some s.manager := rfl
  have hm := hw.coherent 0 s.manager hsite
  have hheld : c ∈ s.manager.held := by simp [Manager.held, hm.mem_keys hr hc]
  obtain ⟨harriving, -⟩ := hw.not_mem_of_mem_held hsite hheld
  obtain ⟨hpending, -⟩ := not_mem_of_orderly hw hr hc
  refine ⟨?_, fun g q hq hqc => ?_⟩
  · simp only [Moment.arriving, alone, List.flatMap_cons, List.flatMap_nil, List.append_nil] at harriving
    rw [Site.waiting, List.mem_append, not_or]
    exact ⟨hpending, harriving⟩
  · exact hm.eq_of_socket hr hc hq hqc

lemma orderly_job {a b : Agenda} {n : Option (Notice κ)}
    (hw : (alone s ports [⟨0, a, none⟩]).Orderly) (hjob : a.next s = (some b, s', n)) :
    (alone (n.elim s' fun _ => s'.enter) ports [⟨0, b, n⟩]).Orderly := by
  have hafter : ((alone s ports [⟨0, a, none⟩]).proceed 0 a [] s).2.Orderly :=
    ((Moment.Step.proceed 0 a [] s rfl rfl).stage hw).orderly hw
  rw [Moment.proceed_eq, hjob] at hafter
  exact hafter

/-- A site with its service between two jobs of a turn. -/
structure Underway (t : SocketId → Talk) (me : κ) (ports : PortSource) (a : Agenda) (s : Site κ)
    (e : Echo) : Prop where
  orderly : (alone s ports [⟨0, a, none⟩]).Orderly
  faithful : Faithful t me none a.batch s e

lemma Underway.coherent {a : Agenda} (hw : Underway t me ports a s e) : s.manager.Coherent :=
  hw.orderly.coherent 0 s.manager rfl

lemma Underway.depth {a : Agenda} (hw : Underway t me ports a s e) : s.manager.depth = 0 :=
  (hw.orderly.depth_eq_zero (s := s) rfl rfl).2

lemma Underway.next {a b : Agenda} (hw : Underway t me ports a s e)
    (hjob : a.next s = (some b, s', none)) : Underway t me ports b s' e := by
  have hf := hw.faithful.next hw.coherent hw.depth (congrArg Prod.fst hjob)
  rw [hjob] at hf
  exact ⟨orderly_job hw.orderly hjob, hf⟩

lemma Underway.serve {a b : Agenda} {job : Site κ → Site κ × Option (Notice κ)} {p : Site κ × Echo}
    (hw : Underway t me ports a p.1 p.2) (hjob : a.next p.1 = (some b, job p.1)) :
    Underway t me ports b (Site.serve (consumer me) job p).1 (Site.serve (consumer me) job p).2 := by
  have horderly := orderly_of_reaches hw.orderly (Moment.reaches_serve
    (w := alone p.1 ports []) Nat.zero_lt_one [] (plain_consumer me) job p hjob)
  refine ⟨horderly, ?_⟩
  have hf := hw.faithful.next hw.coherent hw.depth (congrArg Prod.fst hjob)
  have hdue := fun (cb : κ) (h : Handle) (event : StreamEvent)
    (hn : (a.next p.1).2.2 = some (.event cb h event)) => hw.faithful.due hw.coherent hn
  rw [hjob] at hf hdue
  rw [Site.serve]
  rcases hj : job p.1 with ⟨s₁, _ | _ | ⟨cb, h, event⟩⟩ <;> rw [hj] at hf hdue hjob
  · exact hf
  · have hin : Faithful t me none b.batch s₁.enter p.2 := ⟨hf.mirror, hf.session, hf.waiting⟩
    exact (hin.onOffer ((orderly_job hw.orderly hjob).coherent 0 _ rfl)).leave
  · have hin : Faithful t me (some h) b.batch s₁.enter p.2 := ⟨hf.mirror, hf.session, hf.waiting⟩
    obtain ⟨r, l, hr, hl, hh, hevent⟩ := hdue cb h event rfl
    exact (hin.onEvent (owns_of_orderly (orderly_job hw.orderly hjob) h) hr hl hh hevent).leave

lemma orderly_begin (hw : (alone s ports []).Orderly) :
    (alone s.begin.2 ports [⟨0, .events s.begin.1, none⟩]).Orderly :=
  (Moment.Stage.begin (w := alone s ports []) 0 s rfl rfl).orderly hw

/-- A poll hands bytes over to the peer, behind those that it has not taken yet. -/
lemma Forwards.poll (n : Network) (c : SocketId) : Forwards t t n n.poll.2 c := by
  intro q' hq'
  obtain ⟨q, hq, hx⟩ := n.conveys_poll c q' hq'
  exact ⟨q, hq, fun l hb => hb.exchange (.conveyed rfl hx)⟩

lemma Faithful.begin (hf : Faithful t me none [] s e) :
    Faithful t me none s.begin.1 s.begin.2 e := by
  refine hf.forward (fun _ => rfl) (fun _ _ c _ _ => .poll s.network c) fun c hc q' hq' => ?_
  obtain ⟨q, hq, hb⟩ := Forwards.poll (t := t) s.network c q' hq'
  refine hb [] (hf.waiting c ?_ q hq)
  have hbatch : awaiting s.begin.1 = awaiting s.network.queue := s.network.awaiting_poll
  have hqueue : awaiting s.begin.2.network.queue = [] := rfl
  rw [Site.waiting, hbatch, hqueue, List.append_nil] at hc
  exact hc

lemma Faithful.flush {batch : List SocketEvent} (hf : Faithful t me none batch s e) :
    Faithful t me none batch s.flush e := by
  have hshed : s.Sheds s.flush := ⟨_, rfl⟩
  refine hf.of_sheds (fun _ => rfl) hshed fun c hc => ?_
  rw [Site.waiting, hshed.awaiting] at hc
  exact hc

lemma Faithful.turn (hw : (alone s ports []).Orderly) (hf : Faithful t me none [] s e) :
    Faithful t me none [] (Site.turn (consumer me) (s, e)).1 (Site.turn (consumer me) (s, e)).2 := by
  obtain ⟨p, hp, he⟩ := Site.turn_jobs (I := fun a p => Underway t me ports a p.1 p.2)
    (fun _ _ _ _ hp hjob => hp.serve hjob) ⟨orderly_begin hw, hf.begin⟩
  rw [he]
  exact hp.faithful.flush

/-! ### Before the service is attached -/

/-- A site that nobody has opened yet. -/
structure Idle (s : Site κ) : Prop where
  listener : s.manager.listener = none
  pending : s.manager.backlog = []
  streams : ∀ h, s.manager.streams.get? h = none

lemma Idle.abort (hi : Idle s) (c : SocketId) : Idle (s.abort c) := by
  rw [Site.abort]
  split <;> exact ⟨hi.listener, hi.pending, hi.streams⟩

lemma Idle.unclaimed (hi : Idle s) (hm : s.manager.Coherent) (c : SocketId) :
    s.manager.sockets.get? c = none := by
  by_contra hc
  obtain ⟨h, hh⟩ := Option.ne_none_iff_exists'.mp hc
  obtain ⟨r, hr, -⟩ := hm.record c h hh
  rw [hi.streams h] at hr
  cases hr

lemma Idle.next (hi : Idle s) (hm : s.manager.Coherent) (a : Agenda) :
    (a.next s).2.2 = none ∧ Idle (a.next s).2.1 := by
  rcases a with (_ | ⟨⟨c, k⟩, es⟩) | (_ | ⟨h, hs⟩) | _
  · exact ⟨rfl, hi.listener, hi.pending, hi.streams⟩
  · have hc := hi.unclaimed hm c
    cases k with
    | accepted l =>
      have hforeign : s.manager.listener.map (·.socket) ≠ some l := by
        rw [hi.listener]
        simp
      simp only [Agenda.next, Site.handle, Site.onAccepted, if_pos hforeign]
      have hnoted : Idle (s.note (.lateConnection c)) := ⟨hi.listener, hi.pending, hi.streams⟩
      exact ⟨trivial, hnoted.abort c⟩
    | closed =>
      simp only [Agenda.next, Site.handle, Site.onClosed, hi.pending, hc]
      exact ⟨trivial, hi⟩
    | received | sent | timer | poll =>
      simp only [Agenda.next, Site.handle, hc]
      exact ⟨trivial, hi⟩
  · simp only [Agenda.next, Site.offerPending, hi.listener]
    exact ⟨trivial, hi⟩
  · simp only [Agenda.next, Site.deliverEnd, hi.streams h]
    exact ⟨trivial, hi⟩
  · exact ⟨rfl, hi.listener, hi.pending, hi.streams⟩

lemma Idle.turn (hi : Idle s) (hw : (alone s ports []).Orderly) (hf : Faithful t me none [] s e) :
    Idle (Site.turn nobody (s, ())).1 ∧ Faithful t me none [] (Site.turn nobody (s, ())).1 e := by
  have hserve : ∀ (a b : Agenda) (job : Site κ → Site κ × Option (Notice κ)) (p : Site κ × Unit),
      Underway t me ports a p.1 e ∧ Idle p.1 → a.next p.1 = (some b, job p.1) →
        Underway t me ports b (Site.serve nobody job p).1 e ∧ Idle (Site.serve nobody job p).1 := by
    rintro a b job p ⟨hw, hi⟩ hjob
    obtain ⟨hn, hi'⟩ := hi.next hw.coherent a
    rw [hjob] at hn hi'
    rw [Site.serve]
    rcases hj : job p.1 with ⟨s', _ | n⟩ <;> rw [hj] at hn hi' hjob
    · exact ⟨hw.next hjob, hi'⟩
    · cases hn
  obtain ⟨p, ⟨hp, hi'⟩, he⟩ := Site.turn_jobs
    (I := fun a p => Underway t me ports a p.1 e ∧ Idle p.1) hserve
    ⟨⟨orderly_begin hw, hf.begin⟩, ⟨hi.listener, hi.pending, hi.streams⟩⟩
  rw [he]
  exact ⟨⟨hi'.listener, hi'.pending, hi'.streams⟩, hp.faithful.flush⟩

lemma attach_cases (self : κ) (s : Site κ) :
    (∃ n, attach self s = (.ok fresh, (s.openListener self).2.note n)) ∨
      ∃ cause, attach self s = (.error cause, (s.openListener self).2) ∧
        (s.openListener self).2.manager = s.manager := by
  rw [attach]
  rcases ho : s.openListener self with ⟨cause | _, s₁⟩
  · refine .inr ⟨cause, rfl, ?_⟩
    rw [Site.openListener] at ho
    dsimp only at ho
    split at ho
    · cases ho
      rfl
    · split at ho
      · cases ho
        rfl
      · cases ho
  · exact .inl ⟨_, rfl⟩

lemma Faithful.openListener (hf : Faithful t me none [] s e) (callback : κ) :
    Faithful t me none [] (s.openListener callback).2 e := by
  have hsame := s.get?_openListener callback
  refine hf.forward (fun g => congrArg (Arena.get? · g) (s.quiet_openListener callback).streams)
    (fun _ _ c _ _ => .of_get? fun q hq => (hsame c).symm.trans hq) fun c hc q hq => ?_
  rw [hsame] at hq
  exact hf.waiting c (s.waiting_call (.openListener callback) [] c hc) q hq

/-! ### Calls and the network -/

lemma Faithful.call (hf : Faithful t me none [] s e) {c : Call Handle κ}
    (hc : (Act.call c).fair = true) : Faithful t me none [] (c.perform s).2 e := by
  cases c with
  | closeListener =>
    exact hf.forward (fun g => congrArg (Arena.get? · g) s.quiet_closeListener.streams)
      (fun _ _ c _ _ => .of_get? fun q => Site.get?_of_closeListener) fun c hc q hq =>
        hf.waiting c (s.waiting_call .closeListener [] c hc) q (Site.get?_of_closeListener hq)
  | port | closeOutput h | state h | stats => exact ⟨hf.mirror, hf.session, hf.waiting⟩
  | openListener callback | accept | close h | arm h want callback | read h k | write h bytes => cases hc

lemma Idle.call (hi : Idle s) {c : Call Handle κ} (hc : (Act.call c).fair = true) :
    Idle (c.perform s).2 := by
  cases c with
  | closeListener =>
    rw [Call.perform, Site.closeListener, hi.listener]
    exact hi
  | port | closeOutput h | state h | stats => exact ⟨hi.listener, hi.pending, hi.streams⟩
  | openListener callback | accept | close h | arm h want callback | read h k | write h bytes => cases hc

/-- What a peer sends and takes is accounted for, and no other action moves a byte. -/
lemma Forwards.perform (n : Network) {a : Network.Action}
    (ha : (Act.network a : Act κ).fair = true) {c : SocketId} (hc : c.num < n.nextId) :
    Forwards t (fun d => (t d).hear d ((.network a : Act κ), (n.perform a).1)) n (n.perform a).2 c := by
  have htamper : a.tampers c = false := by cases a <;> first | rfl | cases ha
  intro q' hq'
  obtain ⟨q, hq, hx⟩ := n.exchange_perform (κ := κ) htamper (fun _ => hc) hq'
  exact ⟨q, hq, fun l hb => hb.exchange (hx (t c))⟩

lemma Faithful.perform (hw : (alone s ports []).Orderly) (hf : Faithful t me none [] s e)
    {a : Network.Action} (ha : (Act.network a : Act κ).fair = true) :
    Faithful (fun d => (t d).hear d ((.network a : Act κ), (s.network.perform a).1)) me none []
      { s with network := (s.network.perform a).2 } e := by
  have hold : ∀ c ∈ s.manager.held ++ s.waiting [], c.num < s.network.nextId := by
    intro c hc
    apply hw.fresh c
    simp only [Moment.tokens, Moment.arriving, Moment.held, alone, List.flatMap_nil, List.flatMap_cons,
      List.append_nil, Option.elim_some, Site.waiting, Manager.held, List.mem_append] at hc ⊢
    tauto
  refine hf.forward (fun _ => rfl) (fun g r c hr hc => ?_) fun c hc q' hq' => ?_
  · have hkey := (hw.coherent 0 s.manager rfl).mem_keys hr hc
    exact .perform s.network ha (hold c (by simp [Manager.held, hkey]))
  · by_cases hmem : c ∈ s.waiting []
    · have hc' := hold c (List.mem_append_right _ hmem)
      obtain ⟨q, hq, hb⟩ := Forwards.perform (t := t) s.network ha hc' q' hq'
      exact hb [] (hf.waiting c hmem q hq)
    · simp only [Site.waiting, List.mem_append, not_or] at hc hmem
      have hnew : c ∈ awaiting (s.network.perform a).2.queue := by tauto
      -- Only a new connection can be the one that was not waiting before.
      obtain ⟨p, rfl, hreply, hopen⟩ := (s.network.awaiting_perform a c hnew).resolve_left hmem.2.2
      have hsame : (s.network.perform (.connect p)).2.get? c = some q' := hq'
      rw [hopen] at hsame
      cases hsame
      simp only [hreply, Talk.hear, if_pos]
      rfl

/-! ### Runs -/

/-- A daemon whose service, attached or yet to come, can account for all that passed. -/
structure Accountable (me : κ) (past : Daemon.History κ) (d : Daemon κ) : Prop where
  orderly : ∃ ports, (d.moment ports).Orderly
  faithful : Faithful (talk past) me none [] d.site (d.echo.getD fresh)
  idle : d.echo = none → Idle d.site

lemma accountable_created (me : κ) (o : Options) (ports : PortSource) :
    Accountable me [] (created o ports) where
  orderly := ⟨_, orderly_created o ports⟩
  faithful := by
    refine ⟨fun _ => rfl, fun h r l _ hr => ?_, fun c hc => ?_⟩
    · cases hr
    · cases hc
  idle _ := ⟨rfl, rfl, fun _ => rfl⟩

lemma Accountable.perform {past : Daemon.History κ} {d : Daemon κ} {a : Act κ}
    (h : Accountable me past d) (ha : a.fair = true) :
    Accountable me (past ++ [(a, (d.perform me a).1)]) (d.perform me a).2 := by
  obtain ⟨ports, hw⟩ := h.orderly
  have horderly := orderly_perform me hw a
  have htalk : talk (past ++ [(a, (d.perform me a).1)]) =
      fun c => (talk past c).hear c (a, (d.perform me a).1) := funext fun c => talk_concat past _ c
  suffices hrest : Faithful (fun c => (talk past c).hear c (a, (d.perform me a).1)) me none []
      (d.perform me a).2.site ((d.perform me a).2.echo.getD fresh) ∧
        ((d.perform me a).2.echo = none → Idle (d.perform me a).2.site) by
    rw [← htalk] at hrest
    exact ⟨⟨ports, horderly⟩, hrest.1, hrest.2⟩
  obtain ⟨s, echo⟩ := d
  have hf := h.faithful
  have hi := h.idle
  cases a with
  | network a =>
    refine ⟨hf.perform hw ha, fun he => ?_⟩
    exact ⟨(hi he).listener, (hi he).pending, (hi he).streams⟩
  | call c => exact ⟨hf.call ha, fun he => (hi he).call ha⟩
  | attach =>
    cases echo with
    | some e => exact ⟨hf, fun he => by cases he⟩
    | none =>
      have hopen := hf.openListener me
      simp only [Daemon.perform, Daemon.attach]
      rcases attach_cases me s with ⟨n, hattach⟩ | ⟨cause, hattach, hm⟩ <;> rw [hattach]
      · exact ⟨⟨hopen.mirror, hopen.session, hopen.waiting⟩, by simp⟩
      · refine ⟨hopen, fun _ => ?_⟩
        obtain ⟨hl, hp, hs⟩ := hi rfl
        exact ⟨hm ▸ hl, hm ▸ hp, hm ▸ hs⟩
  | turn =>
    cases echo with
    | some e => exact ⟨hf.turn hw, fun he => by cases he⟩
    | none =>
      obtain ⟨hi', hf'⟩ := (hi rfl).turn hw hf
      exact ⟨hf', fun _ => hi'⟩

lemma accountable_run (me : κ) (o : Options) (ports : PortSource) {acts : List (Act κ)}
    (hfair : ∀ a ∈ acts, a.fair = true) :
    Accountable me ((created o ports).run me acts).1 ((created o ports).run me acts).2 :=
  run_invariant (P := Accountable me) (Q := fun a => a.fair = true)
    (fun _ _ _ hP ha => hP.perform ha) (accountable_created me o ports) acts hfair

end Echo

namespace Daemon

variable {κ : Type}

/-- The echo service neither loses, doubles nor reorders bytes. Between turns every byte that came over
the open connection of a session was taken by the peer, lies on the way to it, is left over in the session
or is yet to be read, in this order. At most a chunk is left over, and while that is so the session waits
to write and for nothing else. -/
theorem bytes_conserved {me : κ} {o : Options} {ports : PortSource} {acts : List (Act κ)}
    {past : History κ} {d : Daemon κ} (hr : (created o ports).run me acts = (past, d))
    (hfair : ∀ a ∈ acts, a.fair = true) {e : Echo} (he : d.echo = some e) {h : Handle} {l : Bytes}
    (hl : e.sessions.get? h = some l) :
    l.length ≤ 1024 ∧ ∃ r, d.site.manager.streams.get? h = some r ∧
      r.interests = (if l = [] then .read else .write) ∧
      ∀ c q, r.socket = some c → d.site.network.get? c = some q →
        (talk past c).sent = (talk past c).taken ++ q.delivered ++ q.outbound ++ l ++ q.inbound := by
  have hacc := run_invariant (P := Echo.Accountable me) (Q := fun a => a.fair = true)
    (fun _ _ _ hP ha => hP.perform ha) (Echo.accountable_created me o ports) acts hfair
  rw [hr, List.nil_append] at hacc
  have hf := hacc.faithful
  rw [he, Option.getD_some] at hf
  have hlive := hf.mirror h
  rw [hl, Option.isSome_some] at hlive
  obtain ⟨r, hr⟩ := Option.isSome_iff_exists.mp hlive.symm
  have hs := hf.session h r l (by simp) hr hl
  exact ⟨hs.holds.short, r, hr, hs.interests, hs.holds.balanced⟩

/-- A peer sends ten bytes and reads none: four of them are queued, three left over and three unread. -/
def stalled : List (Act Unit) :=
  [.attach, .network (.connect 9000), .turn, .network (.stall ⟨2⟩ true),
    .network (.peerSend ⟨2⟩ [1, 2, 3, 4, 5, 6, 7]), .turn, .network (.peerSend ⟨2⟩ [8, 9, 10]), .turn]

theorem bytes_conserved_stalled : ∃ past d e h l q,
    (created ⟨some 9000, 1, 1, 0, 0, 0, 4, 0⟩ .standard).run () stalled = (past, d) ∧
      (∀ a ∈ stalled, a.fair = true) ∧ d.echo = some e ∧ e.sessions.get? h = some l ∧
      d.site.network.get? ⟨2⟩ = some q ∧ q.outbound = [1, 2, 3, 4] ∧ l = [5, 6, 7] ∧
      q.inbound = [8, 9, 10] ∧ l.length ≤ 1024 ∧ ∃ r, d.site.manager.streams.get? h = some r ∧
        r.interests = (if l = [] then .read else .write) ∧
        ∀ c q, r.socket = some c → d.site.network.get? c = some q →
          (talk past c).sent = (talk past c).taken ++ q.delivered ++ q.outbound ++ l ++ q.inbound :=
  ⟨_, _, _, ⟨0, 1⟩, _, _, rfl, by decide, rfl, rfl, rfl, rfl, rfl, rfl,
    @bytes_conserved Unit () ⟨some 9000, 1, 1, 0, 0, 0, 4, 0⟩ .standard stalled _ _ rfl (by decide) _ rfl
      _ _ rfl⟩

end Daemon

end BoundedStreams
