import BoundedStreams.Proofs.Bystander
import BoundedStreams.Proofs.Endings
import BoundedStreams.Proofs.WakeUp

/-! The echo service finishes. As long as nobody disturbs it, each turn in which a session has bytes left
moves at least one of them on, until the peer has got back all that it sent. -/

namespace BoundedStreams

lemma Site.beside_flush {κ : Type} {s : Site κ} {h : Handle} (hd : ∀ r c,
    s.manager.streams.get? h = some r → r.socket = some c → c ∉ s.manager.deferred) :
    s.Beside h s.flush :=
  .of_quiet s.quiet_flush fun r c hr hc =>
    Network.get?_foldl_close_of_not_mem s.manager.deferred s.network (hd r c hr hc)

namespace Echo

open Daemon

variable {κ : Type} {t : SocketId → Talk} {me : κ} {ports : PortSource} {s : Site κ} {e : Echo}
  {h : Handle} {c : SocketId} {r : Stream κ} {l : Bytes} {q : Connection}

/-- The session under `h` has `l` left over, and its peer reads from its connection `c`. -/
structure Attends (h : Handle) (c : SocketId) (p : Site κ × Echo) (r : Stream κ) (l : Bytes)
    (q : Connection) : Prop where
  record : p.1.manager.streams.get? h = some r
  socket : r.socket = some c
  session : p.2.sessions.get? h = some l
  connection : p.1.network.get? c = some q
  flowing : q.stalled = false

/-- How many bytes a session with `l` left over still has to echo. -/
def rest (l : Bytes) (q : Connection) : Nat := l.length + q.inbound.length

lemma Attends.beside {s' : Site κ} (ha : Attends h c (s, e) r l q) (hb : s.Beside h s') :
    Attends h c (s', e) r l q :=
  ⟨hb.record.trans ha.record, ha.socket, ha.session,
    (hb.network r c ha.record ha.socket).trans ha.connection, ha.flowing⟩

/-! ### One answer -/

/-- `n` of the bytes that a session has to echo went into its connection. -/
structure Moves (h : Handle) (c : SocketId) (p p' : Site κ × Echo) (l l' : Bytes) (q : Connection)
    (n : Nat) : Prop where
  attends : ∃ r' q', Attends h c p' r' l' q' ∧ rest l' q' + n = rest l q
  echoed : p'.2.stats.bytesEchoed = p.2.stats.bytesEchoed + n
  room : q.outbound.length < p.1.manager.options.maxOutboundBytes → n ≠ 0

variable (me) in
lemma attends_settle (ha : Attends h c (s, e) r l q) :
    Attends h c (settle me h (some (wanted l), s, e)) (r.arm (wanted l) (some me)) l q ∧
      (settle me h (some (wanted l), s, e)).2 = e := by
  obtain ⟨hok, harm, -⟩ := Site.get?_of_arm ha.record (isEmpty_wanted l) (some me)
  have hnet := s.network_arm h (wanted l) (some me)
  rw [settle]
  dsimp only
  split <;> next heq =>
    rw [heq] at hok harm hnet
    first
      | exact ⟨⟨harm, ha.socket, ha.session, by rw [hnet]; exact ha.connection, ha.flowing⟩, rfl⟩
      | cases hok

lemma Moves.settle {w : Option Interests × Site κ × Echo} {p : Site κ × Echo} {l' : Bytes} {n : Nat}
    (hm : Moves h c p w.2 l l' q n) (hw : w.1 = some (wanted l')) :
    Moves h c p (settle me h w) l l' q n := by
  obtain ⟨next, s', e'⟩ := w
  cases hw
  obtain ⟨⟨r', q', ha, hrest⟩, hechoed, hroom⟩ := hm
  obtain ⟨ha', he⟩ := attends_settle me ha
  exact ⟨⟨_, q', ha', hrest⟩, by rw [he]; exact hechoed, hroom⟩

lemma Attends.send (ha : Attends h c (s, e) r l q) (bytes : Bytes) : ∃ n,
    n = min bytes.length (s.manager.options.maxOutboundBytes - q.outbound.length) ∧
      send s h bytes = (some n, (s.write h bytes).2) ∧
      (s.write h bytes).2.manager.streams.get? h = some r ∧
      (s.write h bytes).2.network.get? c = some { q with outbound := q.outbound ++ bytes.take n } := by
  rcases send_cases ha.record bytes with ⟨hno, -⟩ | ⟨c', n, s', hc, hn, hsend, rfl, hq, -⟩
  · rw [ha.socket] at hno
    cases hno
  · rw [ha.socket] at hc
    cases hc
    rw [Network.outboundLen, ha.connection, Option.elim_some] at hn
    rw [ha.connection] at hq
    exact ⟨n, hn, hsend, by rw [(s.quiet_write h bytes).streams]; exact ha.record, hq⟩

lemma moves_onReadable (ha : Attends h c (s, e) r [] q) (hin : q.inbound ≠ []) :
    ∃ l' n, Moves h c (s, e) (onReadable h (s, e)).2 [] l' q n ∧
      (onReadable h (s, e)).1 = some (wanted l') := by
  have hread := Site.reads ha.record chunk
  have hopt := (s.timely_call (.read h chunk)).options
  obtain ⟨⟨r₁, hr₁, hc₁⟩, -⟩ := Site.get?_of_read ha.record chunk
  simp only [Call.perform] at hopt
  rw [onReadable]
  dsimp only
  generalize s.read h chunk = p at hread hopt hr₁ ⊢
  cases hread with
  | lost hno =>
    rw [ha.socket] at hno
    cases hno
  | dry c' hc' hd =>
    rw [ha.socket] at hc'
    cases hc'
    rw [Network.inboundLen, ha.connection] at hd
    rcases hd with hd | hd
    · cases hd
    · exact absurd (List.length_eq_zero_iff.mp hd) hin
  | bytes c' q' due s₁ hc' hq hne hq₁ ho =>
    rw [ha.socket] at hc'
    cases hc'
    rw [ha.connection] at hq
    cases hq
    have ha₁ : Attends h c (s₁, e) r₁ [] { q with inbound := q.inbound.drop chunk, timer := due } :=
      ⟨hr₁, hc₁.trans ha.socket, ha.session, hq₁, ha.flowing⟩
    obtain ⟨n, hn, hsend, hr₂, hq₂⟩ := ha₁.send (q.inbound.take chunk)
    have hlen : (q.inbound.take chunk).length + (q.inbound.drop chunk).length = q.inbound.length := by
      rw [← List.length_append, List.take_append_drop]
    dsimp only at hopt hn hsend hr₂ hq₂ ⊢
    rw [hopt] at hn
    have hroom : q.outbound.length < s.manager.options.maxOutboundBytes → n ≠ 0 := by
      have hpos := List.length_pos_of_ne_nil hne
      omega
    generalize q.inbound.take chunk = bytes at hne hsend hr₂ hq₂ hlen hn
    obtain ⟨x, xs, rfl⟩ := List.exists_cons_of_ne_nil hne
    simp only [hsend]
    split
    · next hall =>
      refine ⟨[], n, ⟨⟨r₁, _, ⟨hr₂, ha₁.socket, ha.session, hq₂, ha.flowing⟩, ?_⟩, rfl, hroom⟩, rfl⟩
      simp only [rest, List.length_nil]
      omega
    · next hsome =>
      have hleft : (e.countEchoed n).leftover h = [] := by
        rw [leftover, countEchoed, ha.session]
        rfl
      have hrest : (x :: xs).drop n ≠ [] := by
        rw [ne_eq, List.drop_eq_nil_iff]
        omega
      rw [hleft, List.nil_append]
      refine ⟨_, n, ⟨⟨r₁, _, ⟨hr₂, ha₁.socket, get?_keep _ h _, hq₂, ha.flowing⟩, ?_⟩, rfl, hroom⟩,
        congrArg some (if_neg hrest).symm⟩
      simp only [rest, List.length_nil, List.length_drop] at hlen ⊢
      omega

lemma moves_onWritable (ha : Attends h c (s, e) r l q) (hl : l ≠ []) :
    ∃ l' n, Moves h c (s, e) (onWritable h (s, e)).2 l l' q n ∧
      (onWritable h (s, e)).1 = some (wanted l') := by
  obtain ⟨n, hn, hsend, hr, hq⟩ := ha.send l
  have hpos := List.length_pos_of_ne_nil hl
  rw [onWritable]
  simp only [ha.session, hsend]
  refine ⟨l.drop n, n, ⟨⟨r, _, ⟨hr, ha.socket, get?_keep _ h _, hq, ha.flowing⟩, ?_⟩, rfl,
    fun hroom => ?_⟩, ?_⟩
  · simp only [rest, List.length_drop]
    omega
  · dsimp only at hroom
    omega
  · have hiff : n = l.length ↔ l.drop n = [] := by
      rw [List.drop_eq_nil_iff]
      omega
    simp only [wanted, hiff]

variable (me) in
lemma moves_onEvent {event : StreamEvent} (ha : Attends h c (s, e) r l q)
    (hevent : (wanted l).has event = true) (hin : event = .readable → q.inbound ≠ []) :
    ∃ l' n, Moves h c (s, e) (onEvent me h event (s, e)) l l' q n := by
  cases event with
  | readable =>
    obtain rfl := eq_nil_of_readable hevent
    obtain ⟨l', n, hm, hw⟩ := moves_onReadable ha (hin rfl)
    exact ⟨l', n, hm.settle hw⟩
  | writable =>
    have hl : l ≠ [] := by
      rintro rfl
      cases hevent
    obtain ⟨l', n, hm, hw⟩ := moves_onWritable ha hl
    exact ⟨l', n, hm.settle hw⟩

/-! ### One turn -/

/-- In a turn that began with `b` bytes to echo, what is left of them: all, and then the session still
waits to be told of them, or less. -/
inductive Phase (c : SocketId) (a : Agenda) (turns : Nat) (r : Stream κ) (l : Bytes) (q : Connection)
    (b : Nat) : Prop where
  | fresh (hb : rest l q = b) (hout : q.outbound = []) (ht : r.notifiedTurn ≠ some turns)
      (hpoll : b = 0 ∨ ⟨c, .poll⟩ ∈ a.batch) : Phase c a turns r l q b
  | moved (hb : rest l q < b) : Phase c a turns r l q b

/-- Where the session stands in a turn: with the bytes that it still has to echo the service gets to have
echoed `m` in all. -/
def Stands (h : Handle) (c : SocketId) (b m : Nat) (a : Agenda) (p : Site κ × Echo) : Prop :=
  ∃ r l q, Attends h c p r l q ∧ Phase c a p.1.manager.turns r l q b ∧
    m ≤ p.2.stats.bytesEchoed + rest l q

/-- Nobody disturbs the session. -/
structure Progress (h : Handle) (c : SocketId) (b m : Nat) (a : Agenda) (p : Site κ × Echo) : Prop where
  stands : Stands h c b m a p
  calm : awaiting a.batch = []
  opened : ⟨c, .closed⟩ ∉ a.batch
  room : 0 < p.1.manager.options.maxOutboundBytes

lemma Attends.inbound_of_due (ha : Attends h c (s, e) r l q) {event : StreamEvent}
    (hd : r.due? s.network = some event) : event = .readable → q.inbound ≠ [] := by
  rintro rfl hin
  rw [Stream.due?, ha.socket] at hd
  obtain ⟨hlevel, hevent⟩ := Readiness.due?_eq_some_iff.mp hd
  simp only [Network.inboundLen, ha.connection, Option.elim_some, hin, List.length_nil,
    Nat.lt_irrefl, and_false, or_false] at hlevel
  rw [if_pos hlevel] at hevent
  cases hevent

/-- A poll of its connection tells a session of what it has to echo. -/
lemma notice_of_poll {es : List SocketEvent} (ha : Attends h c (s, e) r l q)
    (hm : s.manager.Coherent) (hs : Serves t me s.network r l) (hout : q.outbound = [])
    (ht : r.notifiedTurn ≠ some s.manager.turns) (hrest : rest l q ≠ 0) :
    ∃ event, ((Agenda.events (⟨c, .poll⟩ :: es)).next s).2.2 = some (.event me h event) := by
  have hlinked : s.manager.sockets.get? c = some h := (hm.linked h c).mpr ⟨r, ha.record, ha.socket⟩
  have hdue : ∃ event, r.due? s.network = some event := by
    rw [Stream.due?, ha.socket, hs.interests]
    simp only [Network.inboundLen, Network.outboundLen, ha.connection, Option.elim_some, hout,
      List.length_nil]
    by_cases hl : l = []
    · subst hl
      have hin : 0 < q.inbound.length := by
        rw [rest, List.length_nil, Nat.zero_add] at hrest
        exact Nat.pos_of_ne_zero hrest
      exact ⟨.readable, Readiness.due?_eq_some_iff.mpr ⟨.inr ⟨rfl, hin⟩, rfl⟩⟩
    · have hwrite : wanted l = .write := if_neg hl
      exact ⟨.writable, Readiness.due?_eq_some_iff.mpr
        ⟨.inl ⟨by rw [hwrite]; rfl, rfl⟩, by rw [hwrite]; rfl⟩⟩
  obtain ⟨event, hdue⟩ := hdue
  refine ⟨event, ?_⟩
  simp only [Agenda.next, Site.handle, hlinked]
  exact Site.evaluate_eq ha.record ha.socket hs.callback ht (by rw [hs.readiness]; rfl) hdue

lemma Progress.not_costs {b m : Nat} {ev : SocketEvent} {es : List SocketEvent} {p : Site κ × Echo}
    (hp : Progress h c b m (.events (ev :: es)) p) {r' : Stream κ} {c' : SocketId} {abortive : Bool}
    (hr' : p.1.manager.streams.get? h = some r') (hc' : r'.socket = some c') : ¬ev.Costs c' abortive := by
  obtain ⟨r, l, q, ha, -, -⟩ := hp.stands
  rw [ha.record] at hr'
  cases hr'
  rw [ha.socket] at hc'
  cases hc'
  cases abortive with
  | true =>
    rintro ⟨d, hd⟩
    have hmem : d ∈ awaiting (ev :: es) := List.mem_filterMap.mpr ⟨ev, List.mem_cons_self, hd⟩
    exact List.not_mem_nil (hp.calm ▸ hmem)
  | false => exact fun he => hp.opened (he ▸ List.mem_cons_self)

section Jobs

variable {a b : Agenda} {job : Site κ → Site κ × Option (Notice κ)} {p : Site κ × Echo} {k m : Nat}
  (hw : Underway t me ports a p.1 p.2) (hjob : a.next p.1 = (some b, job p.1))

include hw hjob

/-- As long as the session is not told, the poll of its connection is still to come. -/
lemma Underway.poll_waits (ha : a ≠ .events []) (hattends : Attends h c p r l q) (hout : q.outbound = [])
    (ht : r.notifiedTurn ≠ some p.1.manager.turns) (hrest : rest l q ≠ 0)
    (hn : ∀ cb event, (job p.1).2 ≠ some (.event cb h event)) (hpoll : ⟨c, .poll⟩ ∈ a.batch) :
    ⟨c, .poll⟩ ∈ b.batch := by
  have hserves := hw.faithful.session h r l (by simp) hattends.record hattends.session
  rcases a with (_ | ⟨ev, es⟩) | hs | _
  · exact absurd rfl ha
  · obtain rfl : b = .events es := (Option.some.inj (congrArg Prod.fst hjob)).symm
    refine (List.mem_cons.mp hpoll).resolve_left ?_
    -- Were the poll next, it would tell the session.
    rintro rfl
    obtain ⟨event, hevent⟩ := notice_of_poll hattends hw.coherent hserves hout ht hrest
    rw [hjob] at hevent
    exact hn me event hevent
  · exact absurd hpoll List.not_mem_nil
  · exact absurd hpoll List.not_mem_nil

lemma Underway.stands_spare (ha : a ≠ .events []) (hcalm : awaiting a.batch = [])
    (hstands : Stands h c k m a p) (hn : ∀ cb event, (job p.1).2 ≠ some (.event cb h event))
    (hr : (job p.1).1.manager.streams.get? h = p.1.manager.streams.get? h)
    (hturns : (job p.1).1.manager.turns = p.1.manager.turns) :
    Stands h c k m b (Site.serve (consumer me) job p) := by
  obtain ⟨r, l, q, hattends, hphase, hm⟩ := hstands
  have hnet := Agenda.network_next (s := p.1) hcalm (congrArg Prod.fst hjob)
  rw [hjob] at hnet
  rcases hw.serve_cases hjob (hr.trans hattends.record) with ⟨cb, event, hevent, -⟩ | ⟨-, hapart⟩
  · exact absurd hevent (hn cb event)
  have hattends₁ : Attends h c ((job p.1).1, p.2) r l q :=
    ⟨hr.trans hattends.record, hattends.socket, hattends.session, by rw [hnet]; exact hattends.connection,
      hattends.flowing⟩
  have hattends₂ := hattends₁.beside hapart.site
  refine ⟨r, l, q, ⟨hattends₂.record, hattends₂.socket, hapart.session.trans hattends.session,
    hattends₂.connection, hattends₂.flowing⟩, ?_, Nat.le_trans hm (Nat.add_le_add_right hapart.echoed _)⟩
  rw [hapart.site.treats.turns.trans hturns]
  cases hphase with
  | moved hb => exact .moved hb
  | fresh hb hout ht hpoll =>
    refine .fresh hb hout ht (or_iff_not_imp_left.mpr fun hk => ?_)
    exact hw.poll_waits hjob ha hattends hout ht (hb ▸ hk) hn (hpoll.resolve_left hk)

lemma Underway.stands_told (hcalm : awaiting a.batch = []) (hattends : Attends h c p r l q)
    (hphase : Phase c a p.1.manager.turns r l q k) (hm : m ≤ p.2.stats.bytesEchoed + rest l q)
    (hroom : 0 < p.1.manager.options.maxOutboundBytes) {cb : κ} {event : StreamEvent}
    (hnote : (job p.1).2 = some (.event cb h event)) (hd : r.due? p.1.network = some event)
    (hr : (job p.1).1.manager.streams.get? h = some (r.told event p.1.manager.turns)) :
    Stands h c k m b (Site.serve (consumer me) job p) := by
  have hserves := hw.faithful.session h r l (by simp) hattends.record hattends.session
  have hnet := Agenda.network_next (s := p.1) hcalm (congrArg Prod.fst hjob)
  have hopt := (Site.timely_next hcalm hw.coherent hw.depth).options
  rw [hjob] at hnet hopt
  rcases hw.serve_cases hjob hr with ⟨cb', event', hevent, heq⟩ | ⟨hne, -⟩
  · rw [hnote] at hevent
    cases hevent
    have hattends₁ : Attends h c ((job p.1).1.enter, p.2) (r.told event p.1.manager.turns) l q :=
      ⟨hr, hattends.socket, hattends.session, by rw [← hattends.connection, ← hnet]; rfl, hattends.flowing⟩
    obtain ⟨l', n, ⟨r₁, q₁, hattends₂, hrest⟩, hechoed, hmoves⟩ := moves_onEvent me hattends₁
      (hserves.interests ▸ Stream.has_of_due? hd) (hattends.inbound_of_due hd)
    have hjob' : a.next p.1 = (some b, (job p.1).1, some (.event cb h event)) := by
      rw [hjob, ← hnote]
    have hleave := beside_leave (orderly_answer me p.2 hw.orderly hjob') h
    rw [heq]
    refine ⟨r₁, l', q₁, hattends₂.beside hleave, .moved ?_, ?_⟩
    · cases hphase with
      | moved hb => omega
      | fresh hb hout ht hpoll =>
        -- Nothing is queued for the peer, so that at least one byte fits.
        have hn := hmoves (by rw [hout]; exact hopt ▸ hroom)
        omega
    · dsimp only at hechoed ⊢
      omega
  · exact absurd (by rw [hnote, told?]) hne

lemma Underway.stands (ha : a ≠ .events []) (hp : Progress h c k m a p) :
    Stands h c k m b (Site.serve (consumer me) job p) := by
  obtain ⟨r, l, q, hattends, hphase, hm⟩ := hp.stands
  obtain ⟨x, hx, hx'⟩ := Agenda.treats hw.coherent ha h
  rw [hjob] at hx hx'
  dsimp only at hx hx'
  generalize hnote : (job p.1).2 = n at hx
  cases hx with
  | postpone hs r' hr' ht' =>
    cases hx'.course with
    | postpone r'' hr'' hc'' hr₁ he =>
      rw [hattends.record] at hr''
      cases hr''
      rw [hattends.socket] at hc''
      cases hc''
  | lose ev es r' c' abortive hr' hc' he => exact absurd he (hp.not_costs hr' hc')
  | free ev es r' c' abortive hr' hc' he hi => exact absurd he (hp.not_costs hr' hc')
  | spare _ _ hn hno =>
    cases hx'.course with
    | spare hr' he => exact hw.stands_spare hjob ha hp.calm hp.stands (hnote ▸ hn) hr' hx'.turns
  | notify _ cb event =>
    cases hx'.course with
    | notify _ _ r' hr' hcb ho ht' hd hr'' he =>
      rw [hattends.record] at hr'
      cases hr'
      exact hw.stands_told hjob hp.calm hattends hphase hm hp.room hnote hd hr''

lemma Underway.progress (hp : Progress h c k m a p) :
    Progress h c k m b (Site.serve (consumer me) job p) := by
  by_cases ha : a = .events []
  · subst ha
    obtain ⟨r, l, q, hattends, hphase, hm⟩ := hp.stands
    have hb : b = .ends p.1.manager.ending := (Option.some.inj (congrArg Prod.fst hjob)).symm
    have hj : job p.1 = (p.1.takeEnding.2, none) := (congrArg Prod.snd hjob).symm
    subst hb
    rw [Site.serve, hj]
    refine ⟨⟨r, l, q, ⟨hattends.record, hattends.socket, hattends.session, hattends.connection,
      hattends.flowing⟩, ?_, hm⟩, rfl, List.not_mem_nil, hp.room⟩
    cases hphase with
    | fresh hb hout ht hpoll => exact .fresh hb hout ht hpoll
    | moved hb => exact .moved hb
  have hbatch : ∀ ev ∈ b.batch, ev ∈ a.batch := Moment.batch_rest
    ((Agenda.next_eq_rest p.1 ha).symm.trans (congrArg Prod.fst hjob))
  have hcalm : awaiting b.batch = [] := by
    refine List.eq_nil_iff_forall_not_mem.mpr fun x hx => ?_
    obtain ⟨lx, hlx⟩ := (mem_awaiting_iff _ x).mp hx
    exact List.not_mem_nil (hp.calm ▸ (mem_awaiting_iff _ x).mpr ⟨lx, hbatch _ hlx⟩)
  exact ⟨hw.stands hjob ha hp, hcalm, fun hc => hp.opened (hbatch _ hc),
    (hw.timely hjob hp.calm).options ▸ hp.room⟩

end Jobs

/-! ### Turn by turn -/

structure Reached (me : κ) (past : Daemon.History κ) (d : Daemon κ) : Prop where
  accountable : Accountable me past d
  reaches : ∃ ports ports', (Moment.initial ports).Reaches (d.moment ports')

lemma Reached.perform {past : Daemon.History κ} {d : Daemon κ} (hd : Reached me past d) {a : Act κ}
    (ha : a.fair = true) :
    Reached me (past ++ [(a, (d.perform me a).1)]) (d.perform me a).2 := by
  obtain ⟨ports, ports', hreach⟩ := hd.reaches
  exact ⟨hd.accountable.perform ha, ports, ports', hreach.trans (d.reaches_perform me ports' a)⟩

/-- Nobody disturbs the session under `h`, and it has nothing left to echo after `k` turns, by which the
service gets to have echoed `m` bytes in all. -/
structure Nearing (h : Handle) (c : SocketId) (m k : Nat) (d : Daemon κ) : Prop where
  session : ∃ e r l q, d.echo = some e ∧ Attends h c (d.site, e) r l q ∧
    m ≤ e.stats.bytesEchoed + rest l q ∧ (rest l q < k ∨ rest l q = 0 ∧ q.outbound = [])
  calm : awaiting d.site.network.queue = []
  room : 0 < d.site.manager.options.maxOutboundBytes

lemma tick_of_flowing (hq : q.stalled = false) (now : Nat) : (q.tick now).2.inbound = q.inbound ∧
    (q.tick now).2.outbound = [] ∧ (q.tick now).2.stalled = false := by
  obtain ⟨hin, hout, hstalled⟩ := q.levels_tick now
  rw [hq] at hout hstalled
  exact ⟨hin, hout.trans (if_neg Bool.false_ne_true), hstalled⟩

/-- When a turn begins, what was queued for the peer is out, and the poll of the connection is to come. -/
lemma Attends.begin {m : Nat} (ha : Attends h c (s, e) r l q) (hs : s.network.Sane)
    (ht : ∀ k, r.notifiedTurn = some k → k ≤ s.manager.turns) (hcalm : awaiting s.network.queue = [])
    (hroom : 0 < s.manager.options.maxOutboundBytes) (hm : m ≤ e.stats.bytesEchoed + rest l q) :
    Progress h c (rest l q) m (.events s.begin.1) (s.begin.2, e) := by
  obtain ⟨hin, hout, hflow⟩ := tick_of_flowing ha.flowing s.network.clock
  have hsame : rest l (q.tick s.network.clock).2 = rest l q := by rw [rest, rest, hin]
  have hconn : s.network.get? c = some q := ha.connection
  have hopen : s.network.isOpen c = true := by
    rw [Network.isOpen_eq, hconn]
    rfl
  have hreports := hs.reports hopen
  refine ⟨⟨r, l, (q.tick s.network.clock).2, ⟨ha.record, ha.socket, ha.session, ?_, hflow⟩,
    .fresh hsame hout (fun hk => ?_) (.inr hreports.1), hsame ▸ hm⟩, ?_, hreports.2, hroom⟩
  · exact (s.network.get?_poll c).trans (congrArg _ hconn)
  · exact Nat.not_succ_le_self _ (ht _ hk)
  · exact s.network.awaiting_poll.trans hcalm

variable {past : Daemon.History κ} {d : Daemon κ} {m k : Nat}

lemma Reached.nearing_turn (hd : Reached me past d) (hn : Nearing h c m (k + 1) d) :
    Nearing h c m k (d.turn me) ∧ d.site.Timely (d.turn me).site := by
  obtain ⟨ports, ports', mvs, es, hrun⟩ := hd.reaches
  have htended := Moment.tended_run hrun
  have hw : (alone d.site ports' []).Orderly := htended.heard.numbered.orderly
  obtain ⟨e, r, l, q, he, ha, hm, hrest⟩ := hn.session
  have hf := hd.accountable.faithful
  rw [he, Option.getD_some] at hf
  have hstamp : ∀ k, r.notifiedTurn = some k → k ≤ d.site.manager.turns :=
    fun k => htended.heard.stamp 0 d.site.manager h r k rfl ha.record
  have hbegin := ha.begin (Moment.sane_run hrun) hstamp hn.calm hn.room hm
  have htimely : d.site.Timely d.site.begin.2 := ⟨rfl, rfl, hn.calm.symm, rfl, fun _ => rfl⟩
  obtain ⟨p, ⟨hunder, hp, hp'⟩, heq⟩ := Site.turn_jobs
    (I := fun a p => Underway (talk past) me ports' a p.1 p.2 ∧ Progress h c (rest l q) m a p ∧
      d.site.Timely p.1)
    (fun _ _ _ _ hp hjob => ⟨hp.1.serve hjob, hp.1.progress hjob hp.2.1,
      hp.2.2.trans (hp.1.timely hjob hp.2.1.calm)⟩) ⟨⟨orderly_begin hw, hf.begin⟩, hbegin, htimely⟩
  have hturn : d.turn me = ⟨p.1.flush, some p.2⟩ := by
    simp only [turn, he, heq]
  obtain ⟨r', l', q', ha', hphase, hm'⟩ := hp.stands
  have hflush : p.1.Beside h p.1.flush :=
    Site.beside_flush fun _ _ hr hc => (not_mem_of_orderly hunder.orderly hr hc).2
  have hlast : d.site.Timely p.1.flush :=
    hp'.trans (.of_sheds ⟨_, Site.Does.did (.flush (.refl _))⟩ ⟨_, rfl⟩ rfl)
  rw [hturn]
  refine ⟨⟨⟨p.2, r', l', q', rfl, ha'.beside hflush, hm', ?_⟩, ?_, ?_⟩, hlast⟩
  · cases hphase with
    | moved hb =>
      left
      omega
    | fresh hb hout' ht hpoll =>
      right
      have hzero := hpoll.resolve_right List.not_mem_nil
      exact ⟨hb.trans hzero, hout'⟩
  · exact hlast.awaiting.trans hn.calm
  · exact hlast.options ▸ hn.room

lemma beside_call_of_fair {call : Call Handle κ} (hcall : (Act.call call).fair = true)
    (hw : (alone s ports []).Orderly) (h : Handle) : s.Beside h (call.perform s).2 := by
  cases call with
  | closeListener =>
    exact .of_quiet s.quiet_closeListener fun r c hr hc =>
      s.get?_closeListener (not_mem_of_orderly hw hr hc).1
  | port | state k | stats => exact .of_quiet (.refl s) fun _ _ _ _ => rfl
  | closeOutput k => exact .of_quiet (s.quiet_note _) fun _ _ _ _ => rfl
  | openListener callback | accept | close k | arm k want callback | read k n | write k bytes => cases hcall

lemma Reached.nearing_perform (hd : Reached me past d) {a : Act κ} (ha : a.fair = true)
    (hnet : a.isNetwork = false) (hn : Nearing h c m (k + if a.isTurn then 1 else 0) d) :
    Nearing h c m k (d.perform me a).2 ∧ d.site.Timely (d.perform me a).2.site := by
  cases a with
  | network a => cases hnet
  | turn => exact hd.nearing_turn hn
  | attach =>
    obtain ⟨e, r, l, q, he, hrest⟩ := hn.session
    have hsame : (d.perform me .attach).2 = d := by
      obtain ⟨s, echo⟩ := d
      cases he
      rfl
    rw [hsame]
    exact ⟨hn, .refl d.site⟩
  | call call =>
    obtain ⟨ports', hw⟩ := hd.accountable.orderly
    obtain ⟨e, r, l, q, he, ha', hrest⟩ := hn.session
    have htimely := d.site.timely_call call
    exact ⟨⟨⟨e, r, l, q, he, ha'.beside (beside_call_of_fair ha hw h), hrest⟩,
      htimely.awaiting.trans hn.calm, htimely.options ▸ hn.room⟩, htimely⟩

lemma Reached.nearing_run (hd : Reached me past d) {acts : List (Act κ)}
    (hacts : ∀ a ∈ acts, a.fair = true ∧ a.isNetwork = false)
    (hn : Nearing h c m (acts.countP Act.isTurn) d) :
    Reached me (past ++ (d.run me acts).1) (d.run me acts).2 ∧ Nearing h c m 0 (d.run me acts).2 ∧
      d.site.Timely (d.run me acts).2.site := by
  induction acts generalizing past d with
  | nil =>
    rw [run, List.append_nil]
    exact ⟨hd, hn, .refl d.site⟩
  | cons a acts ih =>
    obtain ⟨ha, hnet⟩ := hacts a List.mem_cons_self
    rw [List.countP_cons] at hn
    obtain ⟨hn', ht⟩ := hd.nearing_perform ha hnet hn
    obtain ⟨hd', hlast, ht'⟩ := ih (hd.perform ha) (fun b hb => hacts b (List.mem_cons_of_mem _ hb)) hn'
    rw [List.append_assoc, List.singleton_append] at hd'
    exact ⟨hd', hlast, ht.trans ht'⟩

lemma Reached.finished (hd : Reached me past d) (hn : Nearing h c m 0 d) :
    ∃ e q, d.echo = some e ∧ e.sessions.get? h = some [] ∧ d.site.network.get? c = some q ∧
      q.inbound = [] ∧ q.outbound = [] ∧
      (talk past c).taken ++ q.delivered = (talk past c).sent ∧ m ≤ e.stats.bytesEchoed := by
  obtain ⟨e, r, l, q, he, ha, hm, hrest⟩ := hn.session
  obtain ⟨hzero, hout⟩ := hrest.resolve_left (Nat.not_lt_zero _)
  rw [hzero, Nat.add_zero] at hm
  rw [rest, Nat.add_eq_zero_iff, List.length_eq_zero_iff, List.length_eq_zero_iff] at hzero
  obtain ⟨rfl, hin⟩ := hzero
  have hf := hd.accountable.faithful
  rw [he, Option.getD_some] at hf
  have hserves := hf.session h r [] (by simp) ha.record ha.session
  have hbalanced := hserves.holds.balanced c q ha.socket ha.connection
  rw [Balanced, hin, hout, List.append_nil, List.append_nil, List.append_nil] at hbalanced
  exact ⟨e, q, he, ha.session, ha.connection, hin, hout, hbalanced.symm, hm⟩

end Echo

namespace Daemon

variable {κ : Type}

open Echo

lemma reached_run (me : κ) (o : Options) (ports : PortSource) {acts : List (Act κ)}
    (hfair : ∀ a ∈ acts, a.fair = true) :
    Reached me ((created o ports).run me acts).1 ((created o ports).run me acts).2 where
  accountable := accountable_run me o ports hfair
  reaches := ⟨ports, reaches_run me o ports acts⟩

lemma options_run (me : κ) (o : Options) (ports : PortSource) (acts : List (Act κ)) :
    ((created o ports).run me acts).2.site.manager.options = o := by
  suffices hall : ∀ (d : Daemon κ), (∃ ports, (d.moment ports).Orderly) →
      (d.run me acts).2.site.manager.options = d.site.manager.options from
    hall (created o ports) ⟨_, orderly_created o ports⟩
  induction acts with
  | nil => exact fun _ _ => rfl
  | cons a acts ih =>
    rintro d ⟨ports, hw⟩
    have hone := (d.reaches_perform me ports a).options hw (i := 0) rfl rfl
    exact (ih _ ⟨ports, orderly_perform me hw a⟩).trans hone

/-- The echo service finishes. A session whose peer reads, with `B` bytes unread or left over, needs
`B + 1` turns: if nobody acts on the network meanwhile and no arrival is on its way, the peer has got back
all that it sent by then, in order, and no buffer between the two holds a byte. -/
theorem session_finishes {me : κ} {o : Options} {ports : PortSource} {acts more : List (Act κ)}
    {past later : History κ} {d d' : Daemon κ} (hr : (created o ports).run me acts = (past, d))
    (hfair : ∀ a ∈ acts, a.fair = true) (hroom : 1 ≤ o.maxOutboundBytes) {e : Echo}
    (he : d.echo = some e) {h : Handle} {r : Stream κ} {c : SocketId} {l : Bytes} {q : Connection}
    (hs : d.site.manager.streams.get? h = some r) (hc : r.socket = some c)
    (hl : e.sessions.get? h = some l) (hq : d.site.network.get? c = some q)
    (hflow : q.stalled = false) (hcalm : ∀ ev ∈ d.site.network.queue, ev.accepted? = none)
    (hclock : d.site.network.clock + o.activePushDelay ≤ Duration.greatest)
    (hr' : d.run me more = (later, d')) (hfair' : ∀ a ∈ more, a.fair = true)
    (hlocal : ∀ a ∈ more, a.isNetwork = false)
    (hturns : q.inbound.length + l.length + 1 ≤ more.countP Act.isTurn) :
    ∃ e' q', d'.echo = some e' ∧ e'.sessions.get? h = some [] ∧ d'.site.network.get? c = some q' ∧
      q'.inbound = [] ∧ q'.outbound = [] ∧
      (talk (past ++ later) c).taken ++ q'.delivered = (talk (past ++ later) c).sent ∧
      d'.site.network.overrun = d.site.network.overrun := by
  have hreached := reached_run me o ports hfair
  have hopt := options_run me o ports acts
  rw [hr] at hreached hopt
  have hqueue : awaiting d.site.network.queue = [] := List.filterMap_eq_nil_iff.mpr hcalm
  have hn : Nearing h c 0 (more.countP Act.isTurn) d := by
    refine ⟨⟨e, r, l, q, he, ⟨hs, hc, hl, hq, hflow⟩, Nat.zero_le _, .inl ?_⟩, hqueue, ?_⟩
    · rw [rest]
      omega
    · rw [hopt]
      exact hroom
  obtain ⟨hreached', hn', htimely⟩ := hreached.nearing_run (fun a ha => ⟨hfair' a ha, hlocal a ha⟩) hn
  rw [hr'] at hreached' hn' htimely
  obtain ⟨e', q', he', hl', hq', hin, hout, hgot, -⟩ := hreached'.finished hn'
  refine ⟨e', q', he', hl', hq', hin, hout, hgot, htimely.overrun ?_⟩
  rw [hopt]
  exact hclock

/-- A peer that had stalled reads again: four of its bytes are queued, three left over and three unread. -/
def released : List (Act Unit) :=
  [.attach, .network (.connect 9000), .turn, .network (.stall ⟨2⟩ true),
    .network (.peerSend ⟨2⟩ [1, 2, 3, 4, 5, 6, 7]), .turn, .network (.peerSend ⟨2⟩ [8, 9, 10]), .turn,
    .network (.stall ⟨2⟩ false)]

theorem session_finishes_released : ∃ past d e r l q later d',
    (created ⟨some 9000, 1, 1, 0, 0, 0, 4, 0⟩ .standard).run () released = (past, d) ∧
      (∀ a ∈ released, a.fair = true) ∧ d.echo = some e ∧
      d.site.manager.streams.get? ⟨0, 1⟩ = some r ∧ r.socket = some ⟨2⟩ ∧
      e.sessions.get? ⟨0, 1⟩ = some l ∧ d.site.network.get? ⟨2⟩ = some q ∧ q.stalled = false ∧
      (∀ ev ∈ d.site.network.queue, ev.accepted? = none) ∧ d.site.network.clock + 0 ≤ Duration.greatest ∧
      q.inbound = [8, 9, 10] ∧ l = [5, 6, 7] ∧
      d.run () (List.replicate 7 .turn) = (later, d') ∧
      ∃ e' q', d'.echo = some e' ∧ e'.sessions.get? ⟨0, 1⟩ = some [] ∧
        d'.site.network.get? ⟨2⟩ = some q' ∧ q'.inbound = [] ∧ q'.outbound = [] ∧
        (talk (past ++ later) ⟨2⟩).taken ++ q'.delivered = (talk (past ++ later) ⟨2⟩).sent ∧
        d'.site.network.overrun = d.site.network.overrun :=
  ⟨_, _, _, _, _, _, _, _, rfl, by decide, rfl, rfl, rfl, rfl, rfl, rfl, by decide, by decide, rfl, rfl,
    rfl, @session_finishes Unit () ⟨some 9000, 1, 1, 0, 0, 0, 4, 0⟩ .standard released
      (List.replicate 7 .turn) _ _ _ _ rfl (by decide) (by decide) _ rfl ⟨0, 1⟩ _ ⟨2⟩ _ _ rfl rfl rfl rfl
      rfl (by decide) (by decide) rfl (by decide) (by decide) (by decide)⟩

end Daemon

end BoundedStreams
