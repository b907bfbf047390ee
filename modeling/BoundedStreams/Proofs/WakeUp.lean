import BoundedStreams.Proofs.Custody
import BoundedStreams.Proofs.Levels
import BoundedStreams.Proofs.Notices

/-! Whether a turn tells of a stream is settled by what waits in its connection after the poll. -/

namespace BoundedStreams

lemma Table.mem_entries_of_get? {α β : Type} [DecidableEq α] {t : Table α β} {k : α} {b : β}
    (h : t.get? k = some b) : (k, b) ∈ t.entries := by
  obtain ⟨es⟩ := t
  simp only [get?] at h
  induction es with
  | nil => cases h
  | cons e es ih =>
    rw [find] at h
    split at h
    · next he =>
      cases h
      simp [← he]
    · exact List.mem_cons_of_mem _ (ih h)

namespace Readiness

lemma due?_eq_some_iff {i : Interests} {inbound outbound : Nat} {e : StreamEvent} :
    due? i inbound outbound = some e ↔
      (i.writable = true ∧ outbound = 0 ∨ i.readable = true ∧ 0 < inbound) ∧
        e = if i.writable = true ∧ outbound = 0 then .writable else .readable := by
  rw [due?]
  simp only [Bool.and_eq_true, decide_eq_true_eq]
  by_cases hw : i.writable = true ∧ outbound = 0
  · rw [if_pos hw, if_pos hw]
    constructor
    · intro he
      cases he
      exact ⟨.inl hw, rfl⟩
    · rintro ⟨-, rfl⟩
      rfl
  · rw [if_neg hw, if_neg hw]
    by_cases hr : i.readable = true ∧ 0 < inbound
    · rw [if_pos hr]
      constructor
      · intro he
        cases he
        exact ⟨.inr hr, rfl⟩
      · rintro ⟨-, rfl⟩
        rfl
    · rw [if_neg hr]
      constructor
      · simp
      · rintro ⟨hw' | hr', -⟩
        · exact absurd hw' hw
        · exact absurd hr' hr

end Readiness

/-- All that can be handed over of what waits in the open connection `c` was handed over. -/
def Network.Drained (n : Network) (c : SocketId) : Prop :=
  ∃ inbound outbound stalled, n.level? c = some (inbound, outbound, stalled) ∧
    (stalled = true ∨ outbound = [])

/-- An end in the queue is of a connection that is over, whoever uses the network. -/
def Network.Sane (n : Network) : Prop := ∃ held, Tidy n [] held []

namespace Network

lemma Steady.level {c : SocketId} {n n' : Network} (h : Steady c n n') (hn : n.Drained c) :
    n'.level? c = n.level? c := by
  obtain ⟨inbound, outbound, stalled, hl, hd⟩ := hn
  rw [hl]
  exact h _ _ _ hl hd

lemma drained_poll {n : Network} {c : SocketId} (hc : n.isOpen c = true) : n.poll.2.Drained c := by
  rw [isOpen_eq] at hc
  obtain ⟨k, hk⟩ := Option.isSome_iff_exists.mp hc
  refine ⟨(k.tick n.clock).2.inbound, (k.tick n.clock).2.outbound, (k.tick n.clock).2.stalled,
    by rw [level?, get?_poll, hk]; rfl, ?_⟩
  obtain ⟨-, hout, hst⟩ := k.levels_tick n.clock
  rw [hout, hst]
  exact (em (k.stalled = true)).imp id fun hst => if_neg hst

lemma inboundLen_poll (n : Network) (c : SocketId) : n.poll.2.inboundLen c = n.inboundLen c := by
  rw [inboundLen, inboundLen, get?_poll]
  cases n.get? c with
  | none => rfl
  | some k => rw [Option.map_some, Option.elim_some, Option.elim_some, (k.levels_tick n.clock).1]

lemma outboundLen_poll {n : Network} {c : SocketId} {k : Connection} (hk : n.get? c = some k) :
    n.poll.2.outboundLen c = if k.stalled = true then k.outbound.length else 0 := by
  rw [outboundLen, get?_poll, hk, Option.map_some, Option.elim_some, (k.levels_tick n.clock).2.1]
  split <;> rfl

lemma sane_initial : initial.Sane :=
  ⟨[], by simp [initial, isOpen, Table.contains], by simp, by simp [initial], trivial,
    by simp [initial, isOpen, Table.contains]⟩

lemma Sane.of_sameTraffic {n n' : Network} (hn : n.Sane) (ht : n.SameTraffic n') : n'.Sane := by
  obtain ⟨held, hn⟩ := hn
  exact ⟨held, hn.of_sameTraffic ht⟩

lemma Sane.closes {n : Network} (hn : n.Sane) (cs : List SocketId) : (cs.foldl close n).Sane := by
  obtain ⟨held, hn⟩ := hn
  exact ⟨held, hn.foldl_close cs⟩

lemma Sane.poll {n : Network} (hn : n.Sane) : n.poll.2.Sane := by
  obtain ⟨held, hn⟩ := hn
  have hp := hn.poll
  refine ⟨awaiting n.poll.1 ++ held, fun c hc => ?_, by simp, by simp [Network.poll], trivial,
    fun c hc => ?_⟩
  · rcases hp.found c hc with hw | hh
    · exact .inr (List.mem_append_left _ (by simpa [Network.poll] using hw))
    · exact .inr (List.mem_append_right _ hh)
  · exact hp.known c (hc.imp id fun he => List.mem_append_right _ he)

lemma Sane.perform {n : Network} (hn : n.Sane) (a : Action) : (n.perform a).2.Sane := by
  by_cases ha : a = .poll
  · subst ha
    exact hn.poll
  · obtain ⟨held, hn⟩ := hn
    exact ⟨held, hn.perform ha⟩

lemma Sane.reports {n : Network} (hn : n.Sane) {c : SocketId} (hc : n.isOpen c = true) :
    ⟨c, .poll⟩ ∈ n.poll.1 ∧ ⟨c, .closed⟩ ∉ n.poll.1 := by
  constructor
  · rw [isOpen, Table.contains] at hc
    obtain ⟨k, hk⟩ := Option.isSome_iff_exists.mp hc
    refine List.mem_append_right _ (List.mem_flatMap.mpr ⟨_, Table.mem_entries_of_get? hk, ?_⟩)
    exact List.mem_map.mpr ⟨.poll, by simp [Connection.tick], rfl⟩
  · obtain ⟨held, hn⟩ := hn
    intro he
    have hover := hn.poll.ended c (List.mem_append_left _ he)
    rw [isOpen_poll, hc] at hover
    cases hover

end Network

namespace Site

variable {κ : Type}

lemma Did.sane {ds : List Deed} {s s' : Site κ} (h : Did ds s s') (hs : s.network.Sane) :
    s'.network.Sane := by
  induction h with
  | nil _ => exact hs
  | cons hd _ ih => exact ih ((hs.closes _).of_sameTraffic hd.sameTraffic)

lemma evaluate_eq {s : Site κ} {h : Handle} {r : Stream κ} {c : SocketId} {cb : κ} {e : StreamEvent}
    (hr : s.manager.streams.get? h = some r) (hc : r.socket = some c) (hcb : r.callback = some cb)
    (ht : r.notifiedTurn ≠ some s.manager.turns) (ho : r.readiness.outstanding = none)
    (hd : r.due? s.network = some e) : (s.evaluate h).2 = some (.event cb h e) := by
  have hdue : Readiness.due? r.readiness.interests (s.network.inboundLen c)
      (s.network.outboundLen c) = some e := by
    rw [Stream.due?, hc] at hd
    exact hd
  have hgive : (r.readiness.poll (s.network.inboundLen c) (s.network.outboundLen c)).1 = some e := by
    rw [Readiness.poll, Readiness.give_fst, ho, hdue]
    rfl
  rcases hp : r.readiness.poll (s.network.inboundLen c) (s.network.outboundLen c) with ⟨_ | e', q⟩
  · rw [hp] at hgive
    cases hgive
  · rw [hp] at hgive
    cases hgive
    simp only [evaluate, hr, hc, hcb, if_neg ht, hp]
    rfl

end Site

namespace Moment

variable {κ : Type}

lemma Stage.sane {w w' : Moment κ} {mv : Move κ} {o : Outcome κ} (hw : w.network.Sane)
    (h : Stage w mv o w') : w'.network.Sane := by
  cases h with
  | network a => exact hw.perform a
  | note n | create p => exact hw
  | release i s hi hs =>
    obtain ⟨ds, hds, -⟩ := s.did_release
    exact hds.sane (((w.site?_eq_some_iff i s).mp hs).2.1 ▸ hw)
  | begin i s hi hs =>
    have hn := ((w.site?_eq_some_iff i s).mp hs).2.1
    exact Network.Sane.poll (hn ▸ hw)
  | work h => exact h.did.sane (((w.site?_eq_some_iff _ _).mp h.site).2.1 ▸ hw)

lemma sane_run {ports : PortSource} {mvs : List (Move κ)} {es : History κ} {w : Moment κ}
    (hr : (initial ports).run mvs = some (es, w)) : w.network.Sane :=
  (run_invariant (P := fun _ w => w.Orderly ∧ w.network.Sane)
    (fun _ _ _ _ _ hw hs =>
      have hst := (step_cases hs).stage hw.1
      ⟨hst.orderly hw.1, hst.sane hw.2⟩)
    ⟨orderly_initial ports, Network.sane_initial⟩ hr).2

/-- Whether the stream under `h` of manager `i` loses its socket to a connection that arrives. -/
def evicts (w : Moment κ) (i : Nat) (h : Handle) (w' : Moment κ) : Move κ → Bool
  | .proceed => ((w.agenda? i).bind (·.batch.head?)).any (·.accepted?.isSome) &&
      w.phase? i h = some .active && w'.phase? i h ≠ some .active
  | _ => false

/-- Whether the stream under `h` of manager `i` is evicted in a run. -/
def evicted (w : Moment κ) (i : Nat) (h : Handle) : List (Move κ) → Bool
  | [] => false
  | mv :: mvs => (w.step mv).any fun (_, w') => w.evicts i h w' mv || w'.evicted i h mvs

lemma evicted_cons {w w' : Moment κ} {i : Nat} {h : Handle} {mv : Move κ} {o : Outcome κ}
    {mvs : List (Move κ)} (hno : w.evicted i h (mv :: mvs) = false) (hs : w.step mv = some (o, w')) :
    w.evicts i h w' mv = false ∧ w'.evicted i h mvs = false := by
  rw [evicted, hs, Option.any_some, Bool.or_eq_false_iff] at hno
  exact hno

/-- Until the stream under `h` is told of, no consumer uses it and nobody acts on its connection. -/
def Undisturbed (i : Nat) (h : Handle) (c : SocketId) (es : History κ) : Prop :=
  ∀ x ∈ es.takeWhile (fun x => !notifies i h x), disturbs i h c x = false

lemma Undisturbed.cons {i : Nat} {h : Handle} {c : SocketId} {x : Move κ × Outcome κ}
    {es : History κ} (hq : Undisturbed i h c (x :: es)) (hx : notifies i h x = false) :
    disturbs i h c x = false ∧ Undisturbed i h c es := by
  rw [Undisturbed, List.takeWhile_cons_of_pos (by simpa using hx)] at hq
  exact ⟨hq x List.mem_cons_self, fun y hy => hq y (List.mem_cons_of_mem _ hy)⟩

/-- In its turn, manager `i` has not told of the stream under `h` yet; the levels of its connection are
those that the poll left. -/
structure Watched (w : Moment κ) (i : Nat) (h : Handle) (r : Stream κ) (c : SocketId) (n : Network) :
    Prop where
  record : ∃ m, w.manager? i = some m ∧ m.streams.get? h = some r ∧ r.notifiedTurn ≠ some m.turns
  agenda : ∃ a, w.agenda? i = some a ∧ ⟨c, .closed⟩ ∉ a.batch
  level : w.network.level? c = n.level? c

lemma due?_eq_of_level? {n n' : Network} {r : Stream κ} {c : SocketId} (hc : r.socket = some c)
    (hl : n'.level? c = n.level? c) : r.due? n' = r.due? n := by
  have hlen : n'.inboundLen c = n.inboundLen c ∧ n'.outboundLen c = n.outboundLen c := by
    simp only [Network.level?] at hl
    simp only [Network.inboundLen, Network.outboundLen]
    cases hn' : n'.get? c <;> cases hn : n.get? c <;> simp_all
  simp only [Stream.due?, hc, hlen]

lemma batch_rest {a b : Agenda} (h : a.rest = some b) : ∀ e ∈ b.batch, e ∈ a.batch := by
  intro e he
  rcases a with (_ | ⟨d, es⟩) | (_ | ⟨g, hs⟩) | _
  · cases h
  · cases h
    exact List.mem_cons_of_mem _ he
  all_goals
    cases h
    try cases he

lemma evicts_of_costs {w w' : Moment κ} {i : Nat} {h : Handle} {c : SocketId} {e : SocketEvent}
    {es : List SocketEvent} {abortive : Bool} (ha : w.agenda? i = some (.events (e :: es)))
    (hno : ⟨c, .closed⟩ ∉ e :: es) (he : e.Costs c abortive) {m m' : Manager κ} {r : Stream κ}
    (hm : w.manager? i = some m) (hr : m.streams.get? h = some r) (hc : r.socket = some c)
    (hm' : w'.manager? i = some m')
    (hr' : ∀ r', m'.streams.get? h = some r' → r'.socket = none) :
    w.evicts i h w' .proceed = true := by
  cases abortive with
  | false =>
    rw [SocketEvent.Costs, if_neg Bool.false_ne_true] at he
    subst he
    exact absurd List.mem_cons_self hno
  | true =>
    obtain ⟨d, hd⟩ := he
    have hactive : w.phase? i h = some .active := by
      simp [phase?, hm, Manager.streamState?, hr, Stream.state, hc]
    have hlost : w'.phase? i h ≠ some .active := by
      intro hp
      obtain ⟨⟨p, want⟩, hp, hstate⟩ := Option.map_eq_some_iff.mp hp
      rw [hm', Option.bind_some, Manager.streamState?] at hp
      obtain ⟨r', hr'', he⟩ := Option.map_eq_some_iff.mp hp
      cases he
      rw [Stream.state, hr' r' hr''] at hstate
      cases hstate
    simp [evicts, ha, Agenda.batch, hd, hactive, hlost]

/-- A step of the turn tells of the stream what there is to tell, or it leaves the record as it was. -/
lemma Watched.passage {w w' : Moment κ} {i : Nat} {h : Handle} {r : Stream κ} {c : SocketId}
    {n : Network} (hx : w.Watched i h r c n) (hc : r.socket = some c) {mv : Move κ} {o : Outcome κ}
    (hp : Passage w i h w' mv o) (hmv : mv ≠ .begin i) (hd : disturbs i h c (mv, o) = false)
    (hev : w.evicts i h w' mv = false) :
    (∃ cb e, (mv, o) = (.proceed, .notice i (.event cb h e)) ∧ r.callback = some cb ∧
        r.readiness.outstanding = none ∧ r.due? n = some e) ∨
      notifies i h (mv, o) = false ∧
        (∃ m', w'.manager? i = some m' ∧ m'.streams.get? h = some r ∧
          r.notifiedTurn ≠ some m'.turns) ∧
        (w'.agenda? i = none ∨ ∃ a, w'.agenda? i = some a ∧ ⟨c, .closed⟩ ∉ a.batch) := by
  obtain ⟨⟨m, hm, hr, hst⟩, ⟨a, ha, hclosed⟩, hlevel⟩ := hx
  cases hp with
  | away mv o hm₁ hm₁' ho hcall =>
    rw [hm] at hm₁
    cases hm₁
  | gone hm₁ ha₁ =>
    rw [ha] at ha₁
    cases ha₁
  | born p m₁ hi hm₁ hs he ha₁ =>
    have hlt := lt_of_manager? hm
    omega
  | begun s hs hs' ha₁ ha₁' => exact absurd rfl hmv
  | taken s hs hs' ha₁ ha₁' =>
    rw [manager?_of_site? hs] at hm
    cases hm
    exact .inr ⟨rfl, ⟨_, manager?_of_site? hs', hr, hst⟩,
      .inr ⟨_, ha₁', by simp [Agenda.batch]⟩⟩
  | treated mv o s s' t hs hs' ht hb ha₁ =>
    have hnet := ((w.site?_eq_some_iff i s).mp hs).2.1
    rw [manager?_of_site? hs] at hm
    cases hm
    have hm' := manager?_of_site? hs'
    have hag : w'.agenda? i = none ∨ ∃ b, w'.agenda? i = some b ∧ ⟨c, .closed⟩ ∉ b.batch := by
      rcases ha₁ with ⟨hsame, -⟩ | ⟨a₁, n₁, hnil, ha₁, ha₁', hb₁⟩
      · exact .inr ⟨a, hsame.trans ha, hclosed⟩
      · cases ha.symm.trans ha₁
        cases hrest : a.rest with
        | none => exact .inl (ha₁'.trans hrest)
        | some b => exact .inr ⟨b, ha₁'.trans hrest, fun hmem => hclosed (batch_rest hrest _ hmem)⟩
    -- A job that takes the socket away is an eviction.
    have hkept : t = .lose ∨ t = .free → mv ≠ .proceed := by
      rintro htaken rfl
      rcases ha₁ with ⟨-, hspare⟩ | ⟨a₁, n₁, hnil, ha₁, ha₁', hb₁⟩
      · rw [hspare rfl] at htaken
        simp at htaken
      · obtain ⟨e, es, r₂, c₂, abortive, rfl, hr₂, hc₂, hcost⟩ := hb₁.costs htaken
        rw [hr] at hr₂
        cases hr₂
        rw [hc] at hc₂
        cases hc₂
        cases ha.symm.trans ha₁
        have hevicts := evicts_of_costs ha hclosed hcost (manager?_of_site? hs) hr hc hm'
          fun _ => ht.course.gone htaken
        rw [hev] at hevicts
        cases hevicts
    cases ht.course with
    | spare hr₁ he =>
      cases hb with
      | spare _ _ hsettles hn hclaim hbegin =>
        exact .inr ⟨hn, ⟨_, hm', hr₁.trans hr, ht.turns.symm ▸ hst⟩, hag⟩
    | touch r₁ hr₁ hc₁ hr₁' he =>
      cases hb with
      | touch k reply => simp [disturbs, Call.uses] at hd
    | claim c₁ hr₁ hr₁' he =>
      rw [hr] at hr₁
      cases hr₁
    | arm want callback r₁ hr₁ hr₁' hwant he =>
      cases hb with
      | arm => simp [disturbs, Call.uses] at hd
    | notify cb e r₁ hr₁ hcb ho htu hdue hr₁' he =>
      rw [hr] at hr₁
      cases hr₁
      cases hb with
      | notify =>
        refine .inl ⟨cb, e, rfl, hcb, ho, ?_⟩
        rw [← hdue, ← hnet]
        exact (due?_eq_of_level? hc hlevel).symm
    | postpone r₁ hr₁ hc₁ hr₁' he =>
      rw [hr] at hr₁
      cases hr₁
      rw [hc] at hc₁
      cases hc₁
    | lose r₁ c₁ hr₁ hc₁ hi hr₁' he =>
      cases hb with
      | lose => exact absurd rfl (hkept (.inl rfl))
    | free r₁ hr₁ hr₁' he =>
      cases hb with
      | dismiss => simp [disturbs, Call.uses] at hd
      | close => simp [disturbs, Call.uses] at hd
      | free => exact absurd rfl (hkept (.inr rfl))

lemma Watched.step {w w' : Moment κ} {i : Nat} {h : Handle} {r : Stream κ} {c : SocketId} {n : Network}
    (hw : w.Orderly) (hx : w.Watched i h r c n) (hc : r.socket = some c) (hn : n.Drained c)
    {mv : Move κ} {o : Outcome κ} (hstep : Step w mv o w') (hmv : mv ≠ .begin i)
    (hd : disturbs i h c (mv, o) = false) (hev : w.evicts i h w' mv = false) :
    (∃ cb e, (mv, o) = (.proceed, .notice i (.event cb h e)) ∧ r.callback = some cb ∧
        r.readiness.outstanding = none ∧ r.due? n = some e) ∨
      notifies i h (mv, o) = false ∧ (w'.inTurn i = false ∨ w'.Watched i h r c n) := by
  rcases hx.passage hc (hstep.passage hw i h) hmv hd hev with htold | ⟨hnot, hrec, ha⟩
  · exact .inl htold
  · refine .inr ⟨hnot, ?_⟩
    rcases ha with ha | ha
    · left
      rw [inTurn_eq_isSome, ha]
      rfl
    · obtain ⟨m, hm, hr, -⟩ := hx.record
      obtain ⟨m', hm', hr', hst⟩ := hrec
      have hsteady := hstep.steady hw hm hr hc hm' hr' hc hd
      have hdrained : w.network.Drained c := by
        rw [Network.Drained, hx.level]
        exact hn
      exact .inr ⟨⟨m', hm', hr', hst⟩, ha, (hsteady.level hdrained).trans hx.level⟩

/-- If there is something to tell, the report of the poll on the connection stays in the batch until
the stream is told of. -/
lemma Watched.pending {w w' : Moment κ} {i : Nat} {h : Handle} {r : Stream κ} {c : SocketId}
    {n : Network} (hw : w.Orderly) (hx : w.Watched i h r c n) (hc : r.socket = some c) {cb : κ}
    {e : StreamEvent} (hcb : r.callback = some cb) (ho : r.readiness.outstanding = none)
    (hdue : r.due? n = some e) {mv : Move κ} {o : Outcome κ} (hstep : Step w mv o w')
    (hmv : mv ≠ .begin i) (hnot : notifies i h (mv, o) = false) {a : Agenda}
    (ha : w.agenda? i = some a) (hp : ⟨c, .poll⟩ ∈ a.batch) :
    ∃ a', w'.agenda? i = some a' ∧ ⟨c, .poll⟩ ∈ a'.batch := by
  obtain ⟨m, hm, hr, hst⟩ := hx.record
  cases hstep.view hw i with
  | apart mv o hm₁ ha₁ hn hcall hb hr₁ => exact ⟨a, ha₁.trans ha, hp⟩
  | born p hi hm₁ ha₁ =>
    have hlt := lt_of_manager? hm
    omega
  | gone hm₁ ha₁ ha₁' =>
    rw [ha] at ha₁
    cases ha₁
  | begin s hs hs' ha₁ ha₁' => exact absurd rfl hmv
  | call call s hs hs' ha₁ | leave s hs hs' ha₁ => exact ⟨a, ha₁.trans ha, hp⟩
  | job a₁ s hs ha₁ hs' ha₁' =>
    cases ha.symm.trans ha₁
    obtain ⟨hm₁, hnet, -⟩ := (w.site?_eq_some_iff i s).mp hs
    rw [hm] at hm₁
    cases hm₁
    rcases a with (_ | ⟨d, es⟩) | hs | _
    · cases hp
    · rcases List.mem_cons.mp hp with rfl | hp
      · have hsocket := ((hw.coherent_site hs).linked h c).mpr ⟨r, hr, hc⟩
        have hd : r.due? s.network = some e := by
          rw [← hnet, due?_eq_of_level? hc hx.level, hdue]
        have htold := Site.evaluate_eq hr hc hcb hst ho hd
        simp only [Agenda.next, Site.handle, hsocket, htold] at hnot
        simp [notifies] at hnot
      · exact ⟨_, ha₁', hp⟩
    · cases hp
    · cases hp

lemma quiet_outside {w w' : Moment κ} {mvs : List (Move κ)} {es : History κ} (hw : w.Orderly)
    (hrun : w.run mvs = some (es, w')) {i : Nat} (hi : w.inTurn i = false) (hmvs : .begin i ∉ mvs)
    (h : Handle) : ∀ x ∈ es, notifies i h x = false := by
  induction mvs generalizing w es with
  | nil =>
    cases hrun
    simp
  | cons mv mvs ih =>
    obtain ⟨o, w₁, es', hs, hrun', rfl⟩ := run_cons hrun
    simp only [List.mem_cons, not_or] at hmvs
    have hstep := step_cases hs
    have ha := agenda?_eq_none hi
    obtain ⟨ha₁, hnot⟩ : w₁.agenda? i = none ∧ notifies i h (mv, o) = false := by
      cases hstep.view hw i with
      | apart mv o hm₁ ha₁ hn hcall hb hr₁ =>
        refine ⟨ha₁.trans ha, Bool.eq_false_iff.mpr fun hx => ?_⟩
        obtain ⟨cb, e, ho⟩ := notifies_eq_true_iff.mp hx
        exact hn _ ho
      | born p hi hm₁ ha₁ => exact ⟨ha₁, rfl⟩
      | gone hm₁ ha₁ ha₁' => exact ⟨ha₁', rfl⟩
      | begin s hs hs' ha₁ ha₁' => exact absurd rfl hmvs.1
      | call call s hs hs' ha₁ | leave s hs hs' ha₁ => exact ⟨ha₁.trans ha, rfl⟩
      | job a₁ s hs ha₁ hs' ha₁' =>
        rw [ha] at ha₁
        cases ha₁
    have hi₁ : w₁.inTurn i = false := by
      rw [inTurn_eq_isSome, ha₁]
      rfl
    intro x hx
    rcases List.mem_cons.mp hx with rfl | hx
    · exact hnot
    · exact ih ((hstep.stage hw).orderly hw) hrun' hi₁ hmvs.2 x hx

/-- What a turn tells first of a watched stream is what there was to tell after the poll. -/
lemma Watched.first {w w' : Moment κ} {mvs : List (Move κ)} {es : History κ} {i : Nat} {h : Handle}
    {r : Stream κ} {c : SocketId} {n : Network} (hw : w.Orderly) (hx : w.Watched i h r c n)
    (hc : r.socket = some c) (hn : n.Drained c) (hrun : w.run mvs = some (es, w'))
    (hmvs : .begin i ∉ mvs) (hq : Undisturbed i h c es) (hev : w.evicted i h mvs = false)
    {x : Move κ × Outcome κ} (hfirst : es.find? (notifies i h) = some x) :
    ∃ cb e, x = (.proceed, .notice i (.event cb h e)) ∧ r.callback = some cb ∧
      r.readiness.outstanding = none ∧ r.due? n = some e := by
  induction mvs generalizing w es with
  | nil =>
    cases hrun
    cases hfirst
  | cons mv mvs ih =>
    obtain ⟨o, w₁, es', hs, hrun', rfl⟩ := run_cons hrun
    simp only [List.mem_cons, not_or] at hmvs
    obtain ⟨hev₁, hev'⟩ := evicted_cons hev hs
    have hstep := step_cases hs
    have hd : disturbs i h c (mv, o) = false := by
      cases hnot : notifies i h (mv, o) with
      | false => exact (hq.cons hnot).1
      | true =>
        obtain ⟨cb, e, rfl⟩ := notifies_eq_true_iff.mp hnot
        rw [(notice_treats hw hs).1]
        rfl
    rcases hx.step hw hc hn hstep (Ne.symm hmvs.1) hd hev₁ with ⟨cb, e, hone⟩ | ⟨hnot, hnext⟩
    · have htold : notifies i h (mv, o) = true := by
        rw [hone.1]
        simp [notifies]
      rw [List.find?_cons_of_pos htold] at hfirst
      cases hfirst
      exact ⟨cb, e, hone⟩
    · rw [List.find?_cons_of_neg (by simp [hnot])] at hfirst
      have hw₁ := (hstep.stage hw).orderly hw
      rcases hnext with hi | hx₁
      · have hno := quiet_outside hw₁ hrun' hi hmvs.2 h x (List.mem_of_find?_eq_some hfirst)
        rw [List.find?_some hfirst] at hno
        cases hno
      · exact ih hw₁ hx₁ hrun' hmvs.2 (hq.cons hnot).2 hev' hfirst

/-- What there is to tell of a watched stream after the poll is told before the turn ends. -/
lemma Watched.told {w w' : Moment κ} {mvs : List (Move κ)} {es : History κ} {i : Nat} {h : Handle}
    {r : Stream κ} {c : SocketId} {n : Network} (hw : w.Orderly) (hx : w.Watched i h r c n)
    (hc : r.socket = some c) (hn : n.Drained c) (hrun : w.run mvs = some (es, w'))
    (hmvs : .begin i ∉ mvs) (hq : Undisturbed i h c es) (hev : w.evicted i h mvs = false) {cb : κ}
    {e : StreamEvent} (hcb : r.callback = some cb) (ho : r.readiness.outstanding = none)
    (hdue : r.due? n = some e) {a : Agenda} (ha : w.agenda? i = some a) (hp : ⟨c, .poll⟩ ∈ a.batch)
    (hend : w'.inTurn i = false) : ∃ x ∈ es, notifies i h x = true := by
  induction mvs generalizing w es a with
  | nil =>
    cases hrun
    rw [inTurn_eq_isSome, ha] at hend
    cases hend
  | cons mv mvs ih =>
    obtain ⟨o, w₁, es', hs, hrun', rfl⟩ := run_cons hrun
    simp only [List.mem_cons, not_or] at hmvs
    cases hnot : notifies i h (mv, o) with
    | true => exact ⟨_, List.mem_cons_self, hnot⟩
    | false =>
      obtain ⟨hev₁, hev'⟩ := evicted_cons hev hs
      obtain ⟨hd, hq'⟩ := hq.cons hnot
      have hstep := step_cases hs
      obtain ⟨a', ha', hp'⟩ := hx.pending hw hc hcb ho hdue hstep (Ne.symm hmvs.1) hnot ha hp
      rcases hx.step hw hc hn hstep (Ne.symm hmvs.1) hd hev₁ with ⟨cb', e', he, -⟩ | ⟨-, hi | hx₁⟩
      · rw [he] at hnot
        simp [notifies] at hnot
      · rw [inTurn_eq_isSome, ha'] at hi
        cases hi
      · obtain ⟨x, hxmem, htold⟩ := ih ((hstep.stage hw).orderly hw) hx₁ hrun' hmvs.2 hq' hev' ha' hp'
        exact ⟨x, List.mem_cons_of_mem _ hxmem, htold⟩

lemma begin_cases {w w' : Moment κ} (hw : w.Orderly) {i : Nat} {o : Outcome κ}
    (hs : w.step (.begin i) = some (o, w')) : o = .done ∧ ∃ s, w.site? i = some s ∧
      w'.site? i = some s.begin.2 ∧ w'.agenda? i = some (.events s.begin.1) := by
  have hview := (step_cases hs).view hw i
  generalize hmv : (Move.begin i : Move κ) = mv at hview
  cases hview with
  | apart mv o hm₁ ha₁ hn hcall hb hr₁ => exact absurd hmv.symm hb
  | begin s hsite hsite' ha₁ ha₁' => exact ⟨rfl, s, hsite, hsite', ha₁'⟩
  | born p hi hm₁ ha₁ | gone hm₁ ha₁ ha₁' | call call s hsite hsite' ha₁ | leave s hsite hsite' ha₁
  | job a₁ s hsite ha₁ hsite' ha₁' => cases hmv

/-- A turn tells of an active stream, whose connection is open, exactly if its consumer waits for what
the levels after the poll allow; and it tells of just that. After the poll no byte waits to go out unless
the connection is stalled. Whoever uses the stream, acts on its connection or takes its place may change
this, and nobody else. -/
theorem no_wake_up_lost {ports : PortSource} {mvs : List (Move κ)} {past : History κ} {w : Moment κ}
    (hrun : (initial ports).run mvs = some (past, w)) {i : Nat} {m : Manager κ} {h : Handle}
    {r : Stream κ} {c : SocketId} (hm : w.manager? i = some m) (hr : m.streams.get? h = some r)
    (hc : r.socket = some c) (hopen : w.network.isOpen c = true) {turn : List (Move κ)}
    {es : History κ} {w' : Moment κ} (hturn : w.run (.begin i :: turn) = some (es, w'))
    (hone : .begin i ∉ turn) (hend : w'.inTurn i = false)
    (hev : w.evicted i h (.begin i :: turn) = false) (hq : Undisturbed i h c es) :
    (∃ k, w.network.get? c = some k ∧
      w.network.poll.2.outboundLen c = if k.stalled = true then k.outbound.length else 0) ∧
    ((∃ x ∈ es, notifies i h x = true) ↔
      r.callback.isSome = true ∧ r.readiness.outstanding = none ∧
        (r.interests.writable = true ∧ w.network.poll.2.outboundLen c = 0 ∨
          r.interests.readable = true ∧ 0 < w.network.inboundLen c)) ∧
    ∀ x, es.find? (notifies i h) = some x → ∃ cb, r.callback = some cb ∧
      x = (.proceed, .notice i (.event cb h
        (if r.interests.writable = true ∧ w.network.poll.2.outboundLen c = 0 then .writable
          else .readable))) := by
  have hheard := heard_run hrun
  have hsane := sane_run hrun
  obtain ⟨o, w₁, es', hs, hrun', rfl⟩ := run_cons hturn
  obtain ⟨-, hev'⟩ := evicted_cons hev hs
  have hw := hheard.numbered.orderly
  have hw₁ := ((step_cases hs).stage hw).orderly hw
  obtain ⟨rfl, s, hsite, hsite', hag⟩ := begin_cases hw hs
  obtain ⟨hms, hnet, -⟩ := (w.site?_eq_some_iff i s).mp hsite
  obtain ⟨hms₁, hnet₁, -⟩ := (w₁.site?_eq_some_iff i _).mp hsite'
  rw [hm] at hms
  cases hms
  have hreports := hsane.reports hopen
  rw [hnet] at hreports hopen ⊢
  -- Stamps are of earlier turns when a turn begins.
  have hst : r.notifiedTurn ≠ some (s.manager.turns + 1) := fun ht =>
    Nat.not_succ_le_self _ (hheard.stamp i _ h r _ hm hr ht)
  have hdrained := Network.drained_poll hopen
  have hx : w₁.Watched i h r c s.network.poll.2 :=
    ⟨⟨_, hms₁, hr, hst⟩, ⟨_, hag, hreports.2⟩, congrArg (Network.level? · c) hnet₁⟩
  have hnot : notifies i h ((.begin i, .done) : Move κ × Outcome κ) = false := rfl
  have hq' := (hq.cons hnot).2
  have hdue : ∀ e, r.due? s.network.poll.2 = some e ↔
      (r.interests.writable = true ∧ s.network.poll.2.outboundLen c = 0 ∨
          r.interests.readable = true ∧ 0 < s.network.inboundLen c) ∧
        e = if r.interests.writable = true ∧ s.network.poll.2.outboundLen c = 0 then .writable
          else .readable := by
    intro e
    simp only [Stream.due?, hc]
    rw [Network.inboundLen_poll, Readiness.due?_eq_some_iff]
  have hfirst : ∀ x, ((.begin i, .done) :: es').find? (notifies i h) = some x →
      ∃ cb e, x = (.proceed, .notice i (.event cb h e)) ∧ r.callback = some cb ∧
        r.readiness.outstanding = none ∧ r.due? s.network.poll.2 = some e :=
    fun x htold => hx.first hw₁ hc hdrained hrun' hone hq' hev' htold
  refine ⟨?_, ⟨fun hex => ?_, ?_⟩, fun x htold => ?_⟩
  · rw [Network.isOpen_eq] at hopen
    obtain ⟨k, hk⟩ := Option.isSome_iff_exists.mp hopen
    exact ⟨k, hk, Network.outboundLen_poll hk⟩
  · obtain ⟨x, htold⟩ := Option.isSome_iff_exists.mp (List.find?_isSome.mpr hex)
    obtain ⟨cb, e, -, hcb, ho, hd⟩ := hfirst x htold
    exact ⟨by rw [hcb]; rfl, ho, ((hdue e).mp hd).1⟩
  · rintro ⟨hcb, ho, hlevels⟩
    obtain ⟨cb, hcb⟩ := Option.isSome_iff_exists.mp hcb
    obtain ⟨x, hxmem, htold⟩ := hx.told hw₁ hc hdrained hrun' hone hq' hev' hcb ho
      ((hdue _).mpr ⟨hlevels, rfl⟩) hag hreports.1 hend
    exact ⟨x, List.mem_cons_of_mem _ hxmem, htold⟩
  · obtain ⟨cb, e, rfl, hcb, -, hd⟩ := hfirst x htold
    exact ⟨cb, hcb, by rw [((hdue e).mp hd).2]⟩

theorem no_wake_up_lost_received : ∃ past w es w',
    (initial .standard).run (arrival ++ [.begin 0, .proceed, .proceed, .proceed, .proceed,
        .call 0 .accept, .call 0 (.arm ⟨0, 1⟩ .read (some ())), .leave, .proceed,
        .network (.stall ⟨2⟩ true), .network (.peerSend ⟨2⟩ [7]), .network (.peerSend ⟨2⟩ [8])]) =
      some (past, w) ∧
    w.run [.begin 0, .proceed, .leave, .proceed, .proceed, .proceed, .proceed, .proceed] =
      some (es, w') ∧
    es.find? (notifies 0 ⟨0, 1⟩) = some (.proceed, .notice 0 (.event () ⟨0, 1⟩ .readable)) := by
  have hrun : ∃ past w m r es w',
      (initial .standard).run (arrival ++ [.begin 0, .proceed, .proceed, .proceed, .proceed,
          .call 0 .accept, .call 0 (.arm ⟨0, 1⟩ .read (some ())), .leave, .proceed,
          .network (.stall ⟨2⟩ true), .network (.peerSend ⟨2⟩ [7]), .network (.peerSend ⟨2⟩ [8])]) =
        some (past, w) ∧
      w.manager? 0 = some m ∧ m.streams.get? ⟨0, 1⟩ = some r ∧ r.socket = some ⟨2⟩ ∧
      w.network.isOpen ⟨2⟩ = true ∧
      w.run [.begin 0, .proceed, .leave, .proceed, .proceed, .proceed, .proceed, .proceed] =
        some (es, w') ∧
      w'.inTurn 0 = false ∧
      w.evicted 0 ⟨0, 1⟩ [.begin 0, .proceed, .leave, .proceed, .proceed, .proceed, .proceed,
        .proceed] = false ∧
      es.any (disturbs 0 ⟨0, 1⟩ ⟨2⟩) = false ∧ r.callback = some () ∧
      r.readiness.outstanding = none ∧ r.interests = .read ∧ w.network.inboundLen ⟨2⟩ = 2 :=
    ⟨_, _, _, _, _, _, rfl, rfl, rfl, rfl, rfl, rfl, rfl, rfl, rfl, rfl, rfl, rfl, rfl⟩
  obtain ⟨past, w, m, r, es, w', hr, hm, hrec, hc, hopen, hturn, hend, hev, hd, hcb, ho, hi, hlen⟩ :=
    hrun
  have hq : Undisturbed 0 ⟨0, 1⟩ ⟨2⟩ es := fun x hx => by
    have hmem := List.takeWhile_subset _ hx
    simpa using List.any_eq_false.mp hd x hmem
  obtain ⟨-, hwhen, hwhat⟩ := no_wake_up_lost hr hm hrec hc hopen hturn (by simp) hend hev hq
  have htold := hwhen.mpr ⟨by rw [hcb]; rfl, ho, .inr ⟨by rw [hi]; rfl, by rw [hlen]; decide⟩⟩
  obtain ⟨x, hx⟩ := Option.isSome_iff_exists.mp (List.find?_isSome.mpr htold)
  obtain ⟨cb, -, rfl⟩ := hwhat x hx
  refine ⟨past, w, es, w', hr, hturn, ?_⟩
  rw [hx, hi]
  rfl

end Moment

end BoundedStreams
