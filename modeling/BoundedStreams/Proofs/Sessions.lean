import BoundedStreams.Proofs.Exchange

/-! The sessions of an echo service over the streams of its site. Each answer to a notice and each job
between two answers leaves every byte where the service can account for it, and in order. -/

namespace BoundedStreams

namespace Site

variable {κ : Type}

/-- What a read finds: no connection, nothing to read, or the next bytes. -/
inductive Reads (s : Site κ) (r : Stream κ) (k : Nat) : Except StreamError Bytes × Site κ → Prop where
  | lost (hc : r.socket = none) : Reads s r k (.ok [], s)
  | dry (c : SocketId) (hc : r.socket = some c) (hd : k = 0 ∨ s.network.inboundLen c = 0) :
      Reads s r k (.error .busy, s)
  | bytes (c : SocketId) (q : Connection) (due : Option Nat) (s' : Site κ) (hc : r.socket = some c)
      (hq : s.network.get? c = some q) (hne : q.inbound.take k ≠ [])
      (hq' : s'.network.get? c = some { q with inbound := q.inbound.drop k, timer := due })
      (ho : ∀ d, d ≠ c → s'.network.get? d = s.network.get? d) :
      Reads s r k (.ok (q.inbound.take k), s')

lemma reads {s : Site κ} {h : Handle} {r : Stream κ} (hr : s.manager.streams.get? h = some r)
    (k : Nat) : Reads s r k (s.read h k) := by
  rw [read, hr]
  dsimp only
  split
  · next hc => exact .lost hc
  · next c hc =>
    split
    · next hd => exact .dry c hc (by simpa using hd)
    · next hk =>
      simp only [Bool.or_eq_true, decide_eq_true_eq, not_or] at hk
      obtain ⟨hk, hlen⟩ := hk
      cases hq : s.network.get? c with
      | none => simp [Network.inboundLen, hq] at hlen
      | some q =>
        have hne : q.inbound.take k ≠ [] := by
          intro he
          rcases List.take_eq_nil_iff.mp he with h0 | hnil
          · exact hk h0
          · simp [Network.inboundLen, hq, hnil] at hlen
        obtain ⟨hfst, hself⟩ := s.network.get?_recv_self k hq
        have hother := fun d (hd : d ≠ c) => s.network.get?_recv_of_ne k (Ne.symm hd)
        generalize s.network.recv c k = p at hfst hself hother ⊢
        obtain ⟨bytes, n⟩ := p
        dsimp only at hfst hself hother ⊢
        subst hfst
        split
        · obtain ⟨due, hdue⟩ := n.get?_schedule_self s.manager.options.activePushDelay hself
          exact .bytes c q _ _ hc hq hne hdue fun d hd =>
            (n.get?_schedule_of_ne _ hd).trans (hother d hd)
        · exact .bytes c q _ _ hc hq hne hself hother

/-- What a write does: nothing, for want of a connection or of room, or it queues some of the bytes. -/
inductive Writes (s : Site κ) (r : Stream κ) (bytes : Bytes) :
    Except StreamError Nat × Site κ → Prop where
  | lost (hc : r.socket = none) : Writes s r bytes (.error .closed, s)
  | full (c : SocketId) (hc : r.socket = some c)
      (hf : s.manager.options.maxOutboundBytes ≤ s.network.outboundLen c) :
      Writes s r bytes (.error .busy, s)
  | queued (c : SocketId) (n : Nat) (s' : Site κ) (hc : r.socket = some c)
      (hn : n = min bytes.length (s.manager.options.maxOutboundBytes - s.network.outboundLen c))
      (hq : s'.network.get? c =
        (s.network.get? c).map fun q => { q with outbound := q.outbound ++ bytes.take n })
      (ho : ∀ d, d ≠ c → s'.network.get? d = s.network.get? d) : Writes s r bytes (.ok n, s')

lemma writes {s : Site κ} {h : Handle} {r : Stream κ} (hr : s.manager.streams.get? h = some r)
    (bytes : Bytes) : Writes s r bytes (s.write h bytes) := by
  rw [write, hr]
  dsimp only
  split
  · next hc => exact .lost hc
  · next c hc =>
    split
    · next hf => exact .full c hc hf
    · refine .queued c _ _ hc rfl ?_ fun d hd => ?_
      · exact (Network.get?_send _ c c _).trans (if_pos rfl)
      · exact (Network.get?_send _ c d _).trans (if_neg (Ne.symm hd))

lemma write_eq {s : Site κ} {h : Handle} {r : Stream κ} {c : SocketId} {q : Connection}
    (hr : s.manager.streams.get? h = some r) (hc : r.socket = some c)
    (hq : s.network.get? c = some q) (bytes : Bytes) :
    s.write h bytes =
      if s.manager.options.maxOutboundBytes ≤ q.outbound.length then (.error .busy, s)
      else
        let n := min bytes.length (s.manager.options.maxOutboundBytes - q.outbound.length)
        (.ok n, { s with network := s.network.send c (bytes.take n) }) := by
  simp only [write, hr, hc, Network.outboundLen, hq, Option.elim_some]

lemma get?_of_read {s : Site κ} {h : Handle} {r : Stream κ} (hr : s.manager.streams.get? h = some r)
    (k : Nat) : (∃ r', (s.read h k).2.manager.streams.get? h = some r' ∧ r'.socket = r.socket) ∧
      ∀ g, g ≠ h → (s.read h k).2.manager.streams.get? g = s.manager.streams.get? g := by
  refine ⟨?_, fun g hg => ?_⟩
  · rcases s.treats_read h h k with ht | ⟨-, ht⟩
    · cases ht.course with
      | spare hr' he => exact ⟨r, hr'.trans hr, rfl⟩
    · cases ht.course with
      | touch r' hr' hc hr'' he =>
        rw [hr] at hr'
        cases hr'
        exact ⟨_, hr'', rfl⟩
  · rcases s.treats_read h g k with ht | ⟨he, -⟩
    · cases ht.course with
      | spare hr' he => exact hr'
    · exact absurd he.symm hg

lemma get?_of_arm {s : Site κ} {h : Handle} {r : Stream κ} (hr : s.manager.streams.get? h = some r)
    {want : Interests} (hw : want.isEmpty = false) (callback : Option κ) :
    (s.arm h want callback).1 = .ok () ∧
      (s.arm h want callback).2.manager.streams.get? h = some (r.arm want callback) ∧
      ∀ g, g ≠ h → (s.arm h want callback).2.manager.streams.get? g = s.manager.streams.get? g := by
  have hothers : ∀ g, g ≠ h →
      (s.arm h want callback).2.manager.streams.get? g = s.manager.streams.get? g := by
    intro g hg
    rcases s.treats_arm h g want callback with ⟨-, ht⟩ | ⟨he, -⟩
    · cases ht.course with
      | spare hr' he => exact hr'
    · exact absurd he.symm hg
  rcases s.treats_arm h h want callback with ⟨hno, -⟩ | ⟨-, hok, ht | ⟨hi, -⟩⟩
  · rw [hr] at hno
    simp at hno
  · cases ht.course with
    | arm want cb r' hr' hr'' hw he =>
      rw [hr] at hr'
      cases hr'
      exact ⟨hok, hr'', hothers⟩
  · rw [hw] at hi
    cases hi

lemma get?_close (s : Site κ) (h g : Handle) :
    (s.close h).manager.streams.get? g = if h = g then none else s.manager.streams.get? g := by
  rcases s.treats_close h g with ⟨hno, ht⟩ | ⟨rfl, ht⟩
  · cases ht.course with
    | spare hr he =>
      split
      · next hg => exact hr.trans (hno.resolve_left fun hne => hne hg)
      · exact hr
  · cases ht.course with
    | free r hr hr' he => rw [if_pos rfl, hr']

end Site

namespace Echo

open Daemon

variable {κ : Type}

/-- What the service waits for while `l` is left over. -/
def wanted (l : Bytes) : Interests := if l = [] then .read else .write

lemma isEmpty_wanted (l : Bytes) : (wanted l).isEmpty = false := by
  rw [wanted]
  split <;> rfl

lemma eq_nil_of_readable {l : Bytes} (h : (wanted l).has .readable = true) : l = [] := by
  rw [wanted] at h
  split at h
  · assumption
  · cases h

/-- With `l` in the hands of the service, every byte that was sent is in one place, and in order. -/
def Balanced (t : Talk) (l : Bytes) (q : Connection) : Prop :=
  t.sent = t.taken ++ q.delivered ++ q.outbound ++ l ++ q.inbound

lemma Balanced.exchange {t t' : Talk} {l : Bytes} {q q' : Connection} (h : Balanced t l q)
    (hx : q.Exchange t t' q') : Balanced t' l q' := by
  rw [Balanced] at h ⊢
  cases hx with
  | conveyed ht hq =>
    subst ht
    rw [h, hq.inbound, List.append_assoc t'.taken q.delivered, ← hq.outward, ← List.append_assoc]
  | sent bytes ht hq =>
    subst ht hq
    rw [h, List.append_assoc]
  | taken ht hq =>
    subst ht hq
    rw [h, List.append_nil]

variable (t : SocketId → Talk) (me : κ)

structure Holds (n : Network) (r : Stream κ) (l : Bytes) : Prop where
  short : l.length ≤ chunk
  balanced : ∀ c q, r.socket = some c → n.get? c = some q → Balanced (t c) l q

/-- A session with its stream, between two notifications. -/
structure Serves (n : Network) (r : Stream κ) (l : Bytes) : Prop where
  callback : r.callback = some me
  readiness : r.readiness = .armed (wanted l)
  holds : Holds t n r l

/-- Each stream has a session that serves it, but for the one that was just told of, and what comes in
before a connection is claimed stays there. -/
structure Faithful (told : Option Handle) (batch : List SocketEvent) (s : Site κ) (e : Echo) :
    Prop where
  mirror : ∀ h, (e.sessions.get? h).isSome = (s.manager.streams.get? h).isSome
  session : ∀ h r l, told ≠ some h → s.manager.streams.get? h = some r →
    e.sessions.get? h = some l → Serves t me s.network r l
  waiting : ∀ c ∈ s.waiting batch, ∀ q, s.network.get? c = some q → Balanced (t c) [] q

variable {t me} {t' : SocketId → Talk} {told : Option Handle} {batch batch' : List SocketEvent}
  {s s' : Site κ} {e : Echo}

/-- Whatever the service has of the connection `c`, the account of its bytes stays right. -/
def Forwards (t t' : SocketId → Talk) (n n' : Network) (c : SocketId) : Prop :=
  ∀ q', n'.get? c = some q' → ∃ q, n.get? c = some q ∧
    ∀ l, Balanced (t c) l q → Balanced (t' c) l q'

lemma Forwards.of_get? {n n' : Network} {c : SocketId}
    (h : ∀ q, n'.get? c = some q → n.get? c = some q) : Forwards t t n n' c :=
  fun q hq => ⟨q, h q hq, fun _ hb => hb⟩

lemma Forwards.of_sheds {n n' : Network} (h : n.Sheds n') (c : SocketId) : Forwards t t n n' c :=
  .of_get? fun _ => h.get?

lemma Holds.of_socket {n : Network} {r r' : Stream κ} {l : Bytes} (hh : Holds t n r l)
    (hc : r'.socket = r.socket) : Holds t n r' l :=
  ⟨hh.short, fun c q hq => hh.balanced c q (hc ▸ hq)⟩

lemma Holds.forward {n n' : Network} {r : Stream κ} {l : Bytes} (h : Holds t n r l)
    (hn : ∀ c, r.socket = some c → Forwards t t' n n' c) : Holds t' n' r l := by
  refine ⟨h.short, fun c q' hc hq' => ?_⟩
  obtain ⟨q, hq, hb⟩ := hn c hc q' hq'
  exact hb l (h.balanced c q hc hq)

lemma Serves.forward {n n' : Network} {r : Stream κ} {l : Bytes} (h : Serves t me n r l)
    (hn : ∀ c, r.socket = some c → Forwards t t' n n' c) : Serves t' me n' r l :=
  ⟨h.callback, h.readiness, h.holds.forward hn⟩

lemma Faithful.forward (h : Faithful t me told batch s e)
    (hs : ∀ g, s'.manager.streams.get? g = s.manager.streams.get? g)
    (hn : ∀ g r c, s.manager.streams.get? g = some r → r.socket = some c →
      Forwards t t' s.network s'.network c)
    (hw : ∀ c ∈ s'.waiting batch', ∀ q, s'.network.get? c = some q → Balanced (t' c) [] q) :
    Faithful t' me told batch' s' e where
  mirror g := (h.mirror g).trans (by rw [hs])
  session g r l hg hr hl := by
    rw [hs] at hr
    exact (h.session g r l hg hr hl).forward fun c hc => hn g r c hr hc
  waiting := hw

lemma Faithful.of_sheds (h : Faithful t me told batch s e)
    (hs : ∀ g, s'.manager.streams.get? g = s.manager.streams.get? g) (hn : s.Sheds s')
    (hw : ∀ c ∈ s'.waiting batch', c ∈ s.waiting batch) : Faithful t me told batch' s' e :=
  h.forward hs (fun _ _ c _ _ => .of_sheds hn c)
    fun c hc q hq => h.waiting c (hw c hc) q (hn.get? hq)

lemma Faithful.leave (h : Faithful t me told batch s e) : Faithful t me told batch s.leave e :=
  h.of_sheds (fun g => congrArg (Arena.get? · g) s.leave_frame.1) s.sheds_leave (s.waiting_leave batch)

/-- The stream under `h` is the only one with its socket, and that was claimed before. -/
def Owns (s : Site κ) (batch : List SocketEvent) (h : Handle) : Prop :=
  ∀ r c, s.manager.streams.get? h = some r → r.socket = some c → c ∉ s.waiting batch ∧
    ∀ g q, s.manager.streams.get? g = some q → q.socket = some c → g = h

/-- What is done to one stream and its session concerns no other. -/
lemma Faithful.others {h : Handle} (hf : Faithful t me (some h) batch s e) {e' : Echo}
    (hs : ∀ g, g ≠ h → s'.manager.streams.get? g = s.manager.streams.get? g)
    (he : ∀ g, g ≠ h → e'.sessions.get? g = e.sessions.get? g)
    (hlive : (e'.sessions.get? h).isSome = (s'.manager.streams.get? h).isSome)
    (hn : ∀ g r c, g ≠ h → s.manager.streams.get? g = some r → r.socket = some c →
      Forwards t t s.network s'.network c)
    (hw : ∀ c ∈ s'.waiting batch, c ∈ s.waiting batch ∧ Forwards t t s.network s'.network c) :
    Faithful t me (some h) batch s' e' where
  mirror g := by
    by_cases hg : g = h
    · rw [hg, hlive]
    · rw [he g hg, hs g hg, hf.mirror]
  session g r l hg hr hl := by
    have hne : g ≠ h := fun heq => hg (congrArg some heq.symm)
    rw [hs g hne] at hr
    rw [he g hne] at hl
    exact (hf.session g r l hg hr hl).forward fun c hc => hn g r c hne hr hc
  waiting c hc q hq := by
    obtain ⟨hmem, hforward⟩ := hw c hc
    obtain ⟨q', hq', hb⟩ := hforward q hq
    exact hb [] (hf.waiting c hmem q' hq')

lemma Faithful.settled {h : Handle} (hf : Faithful t me (some h) batch s e)
    (hh : ∀ r l, s.manager.streams.get? h = some r → e.sessions.get? h = some l →
      Serves t me s.network r l) : Faithful t me none batch s e where
  mirror := hf.mirror
  session g r l _ hr hl := by
    by_cases hg : h = g
    · subst hg
      exact hh r l hr hl
    · exact hf.session g r l (fun he => hg (Option.some.inj he)) hr hl
  waiting := hf.waiting

lemma Faithful.touch {h : Handle} {r : Stream κ} {c : SocketId}
    (hf : Faithful t me (some h) batch s e) (hown : Owns s batch h)
    (hr : s.manager.streams.get? h = some r) (hc : r.socket = some c)
    (hs : ∀ g, g ≠ h → s'.manager.streams.get? g = s.manager.streams.get? g)
    (hlive : (s'.manager.streams.get? h).isSome = true)
    (hn : ∀ d, d ≠ c → s'.network.get? d = s.network.get? d)
    (hw : ∀ c ∈ s'.waiting batch, c ∈ s.waiting batch) : Faithful t me (some h) batch s' e := by
  obtain ⟨hclaimed, honly⟩ := hown r c hr hc
  have hforward : ∀ d, d ≠ c → Forwards t t s.network s'.network d :=
    fun d hd => .of_get? fun q hq => (hn d hd).symm.trans hq
  refine hf.others hs (fun _ _ => rfl) ?_ (fun g q d hg hq hd => hforward d ?_)
    fun d hd => ⟨hw d hd, hforward d ?_⟩
  · rw [hf.mirror, hlive, hr]
    rfl
  · rintro rfl
    exact hg (honly g q hq hd)
  · rintro rfl
    exact hclaimed (hw d hd)

lemma get?_keep (e : Echo) (h : Handle) (l : Bytes) : (e.keep h l).sessions.get? h = some l :=
  (Table.get?_set _ h h l).trans (if_pos rfl)

lemma Faithful.keep {h : Handle} (hf : Faithful t me (some h) batch s e)
    (hlive : (s.manager.streams.get? h).isSome = true) {e' : Echo} {l : Bytes}
    (he : e'.sessions = e.sessions.set h l) : Faithful t me (some h) batch s e' := by
  have hget : ∀ g, e'.sessions.get? g = if h = g then some l else e.sessions.get? g := fun g => by
    rw [he, Table.get?_set]
  refine hf.others (fun _ _ => rfl) (fun g hg => (hget g).trans (if_neg (Ne.symm hg))) ?_
    (fun _ _ _ _ _ _ => .of_get? fun _ hq => hq) fun c hc => ⟨hc, .of_get? fun _ hq => hq⟩
  rw [hget, if_pos rfl, hlive]
  rfl

lemma Faithful.arm {h : Handle} {r : Stream κ} {l : Bytes}
    (hf : Faithful t me (some h) batch s e) (hr : s.manager.streams.get? h = some r)
    (hl : e.sessions.get? h = some l) (hh : Holds t s.network r l) :
    (s.arm h (wanted l) (some me)).1 = .ok () ∧
      Faithful t me none batch (s.arm h (wanted l) (some me)).2 e := by
  obtain ⟨hok, harm, hothers⟩ := Site.get?_of_arm hr (isEmpty_wanted l) (some me)
  have hnet := s.network_arm h (wanted l) (some me)
  have hforward : ∀ c, Forwards t t s.network (s.arm h (wanted l) (some me)).2.network c :=
    fun c => .of_get? fun q hq => by rwa [hnet] at hq
  refine ⟨hok, (hf.others hothers (fun _ _ => rfl) ?_ (fun _ _ c _ _ _ => hforward c) fun c hc =>
    ⟨s.waiting_call (.arm h (wanted l) (some me)) batch c hc, hforward c⟩).settled fun q k hq hk => ?_⟩
  · rw [hl, harm]
    rfl
  · rw [harm] at hq
    rw [hl] at hk
    cases hq
    cases hk
    exact ⟨rfl, rfl, (hh.forward fun c _ => hforward c).of_socket rfl⟩

lemma get?_closeSession (e : Echo) (h g : Handle) :
    (e.closeSession h).sessions.get? g = if h = g then none else e.sessions.get? g := by
  rw [closeSession]
  split
  · exact Table.get?_erase _ _ _
  · next hno =>
    split
    · next hg =>
      subst hg
      simpa [Table.contains] using hno
    · rfl

lemma Faithful.ended {h : Handle} (hf : Faithful t me (some h) batch s e) :
    Faithful t me none batch (endSession h (s, e)).1 (endSession h (s, e)).2 := by
  have herase : ∀ g, (endSession h (s, e)).2.sessions.get? g =
      if h = g then none else e.sessions.get? g := e.get?_closeSession h
  have hclose : ∀ g, (endSession h (s, e)).1.manager.streams.get? g =
      if h = g then none else s.manager.streams.get? g := s.get?_close h
  have hforward : ∀ c, Forwards t t s.network (endSession h (s, e)).1.network c :=
    fun c => .of_sheds (s.sheds_close h) c
  refine (hf.others (fun g hg => (hclose g).trans (if_neg (Ne.symm hg)))
    (fun g hg => (herase g).trans (if_neg (Ne.symm hg))) ?_ (fun _ _ c _ _ _ => hforward c)
    fun c hc => ⟨s.waiting_call (.close h) batch c hc, hforward c⟩).settled fun r l hr hl => ?_
  · rw [hclose, if_pos rfl, herase, if_pos rfl]
    rfl
  · rw [hclose, if_pos rfl] at hr
    cases hr

/-! ### Answers to events -/

lemma send_cases {h : Handle} {r : Stream κ} (hr : s.manager.streams.get? h = some r)
    (bytes : Bytes) : r.socket = none ∧ send s h bytes = (none, s) ∨
      ∃ c n s', r.socket = some c ∧
        n = min bytes.length (s.manager.options.maxOutboundBytes - s.network.outboundLen c) ∧
        send s h bytes = (some n, s') ∧ s' = (s.write h bytes).2 ∧ s'.network.get? c =
          (s.network.get? c).map (fun q => { q with outbound := q.outbound ++ bytes.take n }) ∧
        ∀ d, d ≠ c → s'.network.get? d = s.network.get? d := by
  have hw := Site.writes hr bytes
  rw [send]
  generalize s.write h bytes = p at hw ⊢
  cases hw with
  | lost hc => exact .inl ⟨hc, rfl⟩
  | full c hc hf =>
    refine .inr ⟨c, 0, s, hc, by omega, rfl, rfl, ?_, fun _ _ => rfl⟩
    cases s.network.get? c with
    | none => rfl
    | some q => simp
  | queued c n s' hc hn hq ho => exact .inr ⟨c, n, s', hc, hn, rfl, rfl, hq, ho⟩

lemma Holds.send {n n' : Network} {r : Stream κ} {bytes : Bytes} (hh : Holds t n r bytes)
    {c : SocketId} (hc : r.socket = some c) {k : Nat}
    (hq : n'.get? c = (n.get? c).map fun q => { q with outbound := q.outbound ++ bytes.take k }) :
    Holds t n' r (bytes.drop k) := by
  refine ⟨?_, fun d q hd hget => ?_⟩
  · rw [List.length_drop]
    exact Nat.le_trans (Nat.sub_le _ _) hh.short
  · rw [hc] at hd
    cases hd
    rw [hq] at hget
    obtain ⟨q', hq', rfl⟩ := Option.map_eq_some_iff.mp hget
    have hb := hh.balanced c q' hc hq'
    rw [Balanced] at hb ⊢
    rw [hb]
    simp only [List.append_assoc]
    rw [← List.append_assoc (bytes.take k), List.take_append_drop]

lemma Holds.recv {n n' : Network} {r : Stream κ} (hh : Holds t n r []) {c : SocketId}
    (hc : r.socket = some c) {q : Connection} {due : Option Nat} (hq : n.get? c = some q)
    (hq' : n'.get? c = some { q with inbound := q.inbound.drop chunk, timer := due }) :
    Holds t n' r (q.inbound.take chunk) := by
  refine ⟨List.length_take_le _ _, fun d k hd hk => ?_⟩
  rw [hc] at hd
  cases hd
  rw [hq'] at hk
  cases hk
  have hb := hh.balanced c q hc hq
  rw [Balanced] at hb ⊢
  rw [hb]
  simp only [List.append_assoc, List.nil_append, List.take_append_drop]

/-- The service is done with a notification, but for the arming or the end of the session. -/
structure Answers (t : SocketId → Talk) (me : κ) (batch : List SocketEvent) (h : Handle)
    (p : Option Interests × Site κ × Echo) : Prop where
  faithful : Faithful t me (some h) batch p.2.1 p.2.2
  next : ∀ want, p.1 = some want → ∃ r l, p.2.1.manager.streams.get? h = some r ∧
    p.2.2.sessions.get? h = some l ∧ Holds t p.2.1.network r l ∧ want = wanted l

lemma answers_onReadable {h : Handle} {r : Stream κ} (hf : Faithful t me (some h) batch s e)
    (hown : Owns s batch h) (hr : s.manager.streams.get? h = some r)
    (hl : e.sessions.get? h = some []) (hh : Holds t s.network r []) :
    Answers t me batch h (onReadable h (s, e)) := by
  have hread := Site.reads hr chunk
  have hwait := s.waiting_call (.read h chunk) batch
  obtain ⟨⟨r₁, hr₁, hc₁⟩, hothers⟩ := Site.get?_of_read hr chunk
  simp only [Call.perform] at hwait
  rw [onReadable]
  dsimp only
  generalize s.read h chunk = p at hread hwait hothers hr₁ ⊢
  cases hread with
  | lost hc => exact ⟨⟨hf.mirror, hf.session, hf.waiting⟩, by simp⟩
  | dry =>
    refine ⟨hf, fun want he => ?_⟩
    cases he
    exact ⟨r, [], hr, hl, hh, rfl⟩
  | bytes c q due s₁ hc hq hne hq' ho =>
    have hh₁ := (hh.recv hc hq hq').of_socket hc₁
    obtain ⟨x, xs, hx⟩ := List.exists_cons_of_ne_nil hne
    rw [hx] at hh₁ ⊢
    rcases send_cases hr₁ (x :: xs) with ⟨hno, -⟩ | ⟨c', n, s₂, hc', hn, hsend, rfl, hq₂, ho₂⟩
    · rw [hc₁, hc] at hno
      cases hno
    · rw [hc₁, hc] at hc'
      cases hc'
      have hquiet := s₁.quiet_write h (x :: xs)
      have hr₂ : (s₁.write h (x :: xs)).2.manager.streams.get? h = some r₁ := by
        rw [hquiet.streams, hr₁]
      have hf₂ : Faithful t me (some h) batch (s₁.write h (x :: xs)).2 e := by
        refine hf.touch hown hr hc (fun g hg => ?_) (by rw [hr₂]; rfl)
          (fun d hd => (ho₂ d hd).trans (ho d hd)) fun d hd => ?_
        · rw [hquiet.streams, hothers g hg]
        · exact hwait d (s₁.waiting_call (.write h (x :: xs)) batch d hd)
      have hh₂ := hh₁.send (hc₁.trans hc) hq₂
      simp only [hsend]
      split
      · next hall =>
        refine ⟨⟨hf₂.mirror, hf₂.session, hf₂.waiting⟩, fun want he => ?_⟩
        cases he
        rw [hall, List.drop_length] at hh₂
        exact ⟨r₁, [], hr₂, hl, hh₂, rfl⟩
      · next hsome =>
        have hleft : (e.countEchoed n).leftover h = [] := by
          rw [leftover, countEchoed, hl]
          rfl
        have hrest : (x :: xs).drop n ≠ [] := by
          rw [ne_eq, List.drop_eq_nil_iff]
          omega
        rw [hleft, List.nil_append]
        refine ⟨hf₂.keep (by rw [hr₂]; rfl) rfl, fun want he => ?_⟩
        cases he
        exact ⟨r₁, _, hr₂, get?_keep _ h _, hh₂, (if_neg hrest).symm⟩

lemma answers_onWritable {h : Handle} {r : Stream κ} {l : Bytes}
    (hf : Faithful t me (some h) batch s e) (hown : Owns s batch h)
    (hr : s.manager.streams.get? h = some r) (hl : e.sessions.get? h = some l)
    (hh : Holds t s.network r l) : Answers t me batch h (onWritable h (s, e)) := by
  have hlive : (s.manager.streams.get? h).isSome = true := by rw [hr]; rfl
  rw [onWritable]
  simp only [hl]
  split
  · next heq => cases heq
  · next heq =>
    cases heq
    refine ⟨hf, fun want he => ?_⟩
    cases he
    exact ⟨r, [], hr, hl, hh, rfl⟩
  · next heq =>
    cases heq
    rcases send_cases hr l with ⟨-, hsend⟩ | ⟨c, n, s₂, hc, hn, hsend, rfl, hq₂, ho₂⟩
    · simp only [hsend]
      exact ⟨hf.keep hlive rfl, by simp⟩
    · have hquiet := s.quiet_write h l
      have hr₂ : (s.write h l).2.manager.streams.get? h = some r := by rw [hquiet.streams, hr]
      have hf₂ : Faithful t me (some h) batch (s.write h l).2 e :=
        hf.touch hown hr hc (fun g _ => by rw [hquiet.streams]) (by rw [hr₂]; rfl) ho₂
          (s.waiting_call (.write h l) batch)
      simp only [hsend]
      refine ⟨hf₂.keep (by rw [hr₂]; rfl) rfl, fun want he => ?_⟩
      cases he
      refine ⟨r, _, hr₂, get?_keep _ h _, hh.send hc hq₂, ?_⟩
      have hiff : n = l.length ↔ l.drop n = [] := by
        rw [List.drop_eq_nil_iff]
        omega
      simp only [wanted, hiff]

lemma Answers.settle {h : Handle} {p : Option Interests × Site κ × Echo}
    (ha : Answers t me batch h p) :
    Faithful t me none batch (settle me h p).1 (settle me h p).2 := by
  obtain ⟨next, s, e⟩ := p
  cases next with
  | none => exact ha.faithful.ended
  | some want =>
    obtain ⟨r, l, hr, hl, hh, rfl⟩ := ha.next want rfl
    obtain ⟨hok, harm⟩ := ha.faithful.arm hr hl hh
    rw [Echo.settle]
    dsimp only at hok harm ⊢
    split <;> next heq =>
      rw [heq] at hok harm
      first
        | exact harm
        | cases hok

lemma Faithful.onEvent {h : Handle} {r : Stream κ} {l : Bytes} {event : StreamEvent}
    (hf : Faithful t me (some h) batch s e) (hown : Owns s batch h)
    (hr : s.manager.streams.get? h = some r) (hl : e.sessions.get? h = some l)
    (hh : Holds t s.network r l) (he : (wanted l).has event = true) :
    Faithful t me none batch (onEvent me h event (s, e)).1 (onEvent me h event (s, e)).2 := by
  cases event with
  | readable =>
    have hnil := eq_nil_of_readable he
    subst hnil
    rw [onEvent_readable]
    exact (answers_onReadable hf hown hr hl hh).settle
  | writable =>
    rw [onEvent_writable]
    exact (answers_onWritable hf hown hr hl hh).settle

/-- A connection comes to its session with all that was sent so far still unread. -/
lemma Faithful.claim {k : Handle} {c : SocketId} (hf : Faithful t me none batch s e)
    (hm : s.manager.Coherent) (hclaim : Site.Does (.claim k c) s s')
    (hnet : s'.network = s.network) (hwait : ∀ d ∈ s'.waiting batch, d ∈ s.waiting batch) :
    ∃ r, s'.manager.streams.get? k = some r ∧ Holds t s'.network r [] ∧
      Faithful t me (some k) batch s' (e.openSession k) := by
  obtain ⟨-, ⟨r, hr, hc⟩, hothers, -⟩ := hclaim.of_claim hm
  have hmem : c ∈ s.waiting batch := by
    cases hclaim with
    | claim k a p b hb hcap hi h =>
      apply List.mem_append_left
      rw [hb]
      exact List.mem_cons_self
  have hset : ∀ g, (e.openSession k).sessions.get? g =
      if k = g then some [] else e.sessions.get? g := (Table.get?_set e.sessions k · [])
  have hforward : ∀ d, Forwards t t s.network s'.network d := fun d => .of_get? fun q hq => by
    rwa [hnet] at hq
  have hexcused : Faithful t me (some k) batch s e :=
    ⟨hf.mirror, fun g r l _ => hf.session g r l (by simp), hf.waiting⟩
  refine ⟨r, hr, ⟨Nat.zero_le _, fun d q hd hq => ?_⟩, hexcused.others hothers
    (fun g hg => (hset g).trans (if_neg (Ne.symm hg))) ?_ (fun _ _ d _ _ _ => hforward d)
    fun d hd => ⟨hwait d hd, hforward d⟩⟩
  · rw [hc] at hd
    cases hd
    rw [hnet] at hq
    exact hf.waiting c hmem q hq
  · rw [hset, if_pos rfl, hr]
    rfl

lemma Faithful.onOffer (hf : Faithful t me none batch s e) (hm : s.manager.Coherent) :
    Faithful t me none batch (onOffer me (s, e)).1 (onOffer me (s, e)).2 := by
  have hnet := s.network_accept
  have hwait := s.waiting_call .accept batch
  have hdoes := s.does_accept
  simp only [Call.perform] at hwait
  rw [Echo.onOffer]
  dsimp only
  generalize s.accept = p at hnet hwait hdoes ⊢
  obtain ⟨_ | k, s₁⟩ := p <;> dsimp only at hnet hwait hdoes ⊢
  · rcases hdoes with ⟨-, hkeep⟩ | ⟨k, c, hk, -⟩
    · cases hkeep with
      | keep h =>
        have hshed : s.Sheds s₁ := ⟨[], hnet⟩
        exact hf.of_sheds (fun g => by rw [h.streams]) hshed hwait
    · cases hk
  · rcases hdoes with ⟨hk, -⟩ | ⟨k', c, hk, hclaim⟩
    · cases hk
    · cases hk
      obtain ⟨r, hr, hh, hf₁⟩ := hf.claim hm hclaim hnet hwait
      have hf₂ : Faithful t me (some k) batch (s₁.note (.sessionStarted k)) (e.openSession k) :=
        ⟨hf₁.mirror, hf₁.session, hf₁.waiting⟩
      have hl : (e.openSession k).sessions.get? k = some [] :=
        (Table.get?_set e.sessions k k []).trans (if_pos rfl)
      obtain ⟨hok, harm⟩ := hf₂.arm hr hl hh
      rw [wanted, if_pos rfl] at hok harm
      split <;> next heq =>
        rw [heq] at hok harm
        first
          | exact harm
          | cases hok

/-! ### Jobs of a turn -/

/-- The stream that a notice tells of. -/
def told? : Option (Notice κ) → Option Handle
  | some (.event _ h _) => some h
  | _ => none

lemma Serves.interests {n : Network} {r : Stream κ} {l : Bytes} (h : Serves t me n r l) :
    r.interests = wanted l := by
  rw [Stream.interests, h.readiness]
  rfl

lemma Serves.lose {n : Network} {r : Stream κ} {l : Bytes} (h : Serves t me n r l) :
    Serves t me n { r with socket := none } l :=
  ⟨h.callback, h.readiness, h.holds.short, by simp⟩

lemma Faithful.serves {h : Handle} {r : Stream κ} (hf : Faithful t me none batch s e)
    (hr : s.manager.streams.get? h = some r) :
    ∃ l, e.sessions.get? h = some l ∧ Serves t me s.network r l := by
  have hlive := hf.mirror h
  rw [hr, Option.isSome_some] at hlive
  obtain ⟨l, hl⟩ := Option.isSome_iff_exists.mp hlive
  exact ⟨l, hl, hf.session h r l (by simp) hr hl⟩

/-- A job frees no stream, for each is waiting for something. -/
lemma Faithful.brings {a : Agenda} {n : Option (Notice κ)} {h : Handle} {x : Treatment κ}
    (hf : Faithful t me none batch s e) (hb : a.Brings s h n x) (hx : Site.Treats h x s s') :
    (s'.manager.streams.get? h).isSome = (s.manager.streams.get? h).isSome ∧
      (told? n ≠ some h → ∀ r', s'.manager.streams.get? h = some r' →
        ∃ r, s.manager.streams.get? h = some r ∧ (r' = r ∨ r' = { r with socket := none })) := by
  cases hb with
  | spare a n hn hm =>
    cases hx.course with
    | spare hr he =>
      rw [hr]
      exact ⟨rfl, fun _ r' hr' => ⟨r', hr', .inl rfl⟩⟩
  | notify a cb event =>
    cases hx.course with
    | notify cb event r hr hc ho ht hd hr' he =>
      rw [hr, hr']
      exact ⟨rfl, fun hn => absurd rfl hn⟩
  | postpone hs r hr ht =>
    cases hx.course with
    | postpone r' hr' hc hr'' he =>
      rw [hr', hr'']
      exact ⟨rfl, fun _ q hq => ⟨q, hq, .inl rfl⟩⟩
  | lose ev es r c abortive hr hc he =>
    cases hx.course with
    | lose r' c' hr' hc' hi hr'' he' =>
      rw [hr', hr'']
      refine ⟨rfl, fun _ q hq => ?_⟩
      cases hq
      exact ⟨r', rfl, .inr rfl⟩
  | free ev es r c abortive hr hc he hi =>
    obtain ⟨l, -, hs⟩ := hf.serves hr
    rw [hs.interests, isEmpty_wanted] at hi
    cases hi

lemma Faithful.next {a b : Agenda} (hf : Faithful t me none a.batch s e) (hm : s.manager.Coherent)
    (hd : s.manager.depth = 0) (hb : (a.next s).1 = some b) :
    Faithful t me (told? (a.next s).2.2) b.batch (a.next s).2.1 e := by
  have hshed := s.sheds_next a
  obtain ⟨ds, hds, hsub, -⟩ := a.did_next s hd hm.record
  rw [hb] at hsub
  have hwait := hds.waiting hsub
  have hstreams : ∀ h, ((a.next s).2.1.manager.streams.get? h).isSome =
      (s.manager.streams.get? h).isSome ∧ (told? (a.next s).2.2 ≠ some h → ∀ r',
        (a.next s).2.1.manager.streams.get? h = some r' → ∃ r,
          s.manager.streams.get? h = some r ∧ (r' = r ∨ r' = { r with socket := none })) := by
    intro h
    by_cases ha : a = .events []
    · subst ha
      exact ⟨rfl, fun _ r' hr' => ⟨r', hr', .inl rfl⟩⟩
    · obtain ⟨x, hx, hx'⟩ := Agenda.treats hm ha h
      exact hf.brings hx hx'
  refine ⟨fun h => (hf.mirror h).trans (hstreams h).1.symm, fun h r l hn hr hl => ?_,
    fun c hc q hq => hf.waiting c (hwait c hc) q (hshed.get? hq)⟩
  obtain ⟨q, hq, rfl | rfl⟩ := (hstreams h).2 hn r hr
  · exact (hf.session h r l (by simp) hq hl).forward fun c _ => .of_sheds hshed c
  · exact (hf.session h q l (by simp) hq hl).lose.forward fun c _ => .of_sheds hshed c

lemma Faithful.due {a : Agenda} {cb : κ} {h : Handle} {event : StreamEvent}
    (hf : Faithful t me none batch s e) (hm : s.manager.Coherent)
    (hn : (a.next s).2.2 = some (.event cb h event)) :
    ∃ r l, (a.next s).2.1.manager.streams.get? h = some r ∧ e.sessions.get? h = some l ∧
      Holds t (a.next s).2.1.network r l ∧ (wanted l).has event = true := by
  have hshed := s.sheds_next a
  have ha : a ≠ .events [] := by
    rintro rfl
    cases hn
  obtain ⟨x, hx, hx'⟩ := Agenda.treats hm ha h
  rw [hn] at hx
  cases hx with
  | spare a n hn hm => exact absurd rfl (hn cb event)
  | notify a cb event =>
    cases hx'.course with
    | notify cb event r hr hc ho ht hd hr' he =>
      obtain ⟨l, hl, hs⟩ := hf.serves hr
      refine ⟨_, l, hr', hl, ?_, hs.interests ▸ Stream.has_of_due? hd⟩
      exact (hs.holds.forward fun c _ => .of_sheds hshed c).of_socket rfl

end Echo

end BoundedStreams
