import BoundedStreams.Proofs.Exchange
import BoundedStreams.Proofs.Sessions
import BoundedStreams.Proofs.Trace
import BoundedStreams.Proofs.View

/-! Claimed streams are reliable pipes. Until its connection ends, what a stream was given to write is what
its peer got and will get, and what the peer sent is what was read and will be read, in order. -/

namespace BoundedStreams

/-- The bytes that a stream took to write, and those that were read from it. -/
structure Pipe where
  written : Bytes
  read : Bytes

/-- Both directions of a connection between its stream and its peer. -/
structure Connection.Carries (t : Daemon.Talk) (p : Pipe) (q : Connection) : Prop where
  outward : p.written = t.taken ++ q.delivered ++ q.outbound
  inward : p.read ++ q.inbound = t.sent

namespace Connection

variable {t t' : Daemon.Talk} {p : Pipe} {q q' : Connection}

lemma Carries.conveys (h : q.Carries t p) (hq : q.Conveys q') : q'.Carries t p := by
  refine ⟨?_, by rw [hq.inbound, h.inward]⟩
  rw [h.outward, List.append_assoc, List.append_assoc, hq.outward]

lemma Carries.exchange (h : q.Carries t p) (hx : q.Exchange t t' q') : q'.Carries t' p := by
  cases hx with
  | conveyed ht hq =>
    subst ht
    exact h.conveys hq
  | sent bytes ht hq =>
    subst ht hq
    exact ⟨h.outward, by rw [← List.append_assoc, h.inward]⟩
  | taken ht hq =>
    subst ht hq
    exact ⟨by rw [h.outward, List.append_nil], h.inward⟩

end Connection

namespace Pipe

/-- What a read that ended with the result adds. -/
def afterRead (p : Pipe) : Except StreamError Bytes → Pipe
  | .ok bytes => { p with read := p.read ++ bytes }
  | .error _ => p

/-- What a write of the bytes that ended with the result adds. -/
def afterWrite (p : Pipe) (bytes : Bytes) : Except StreamError Nat → Pipe
  | .ok n => { p with written := p.written ++ bytes.take n }
  | .error _ => p

end Pipe

namespace Site

variable {κ : Type} {s : Site κ} {h : Handle} {r : Stream κ} {c : SocketId} {q : Connection}

lemma carries_read (hr : s.manager.streams.get? h = some r) (hc : r.socket = some c) (k : Nat)
    {q' : Connection} (hq' : (s.read h k).2.network.get? c = some q') :
    ∃ q, s.network.get? c = some q ∧ q'.outbound = q.outbound ∧
      ∀ t p, q.Carries t p → q'.Carries t (p.afterRead (s.read h k).1) := by
  have hread := reads hr k
  generalize s.read h k = a at hq' hread ⊢
  cases hread with
  | lost hno =>
    rw [hc] at hno
    cases hno
  | dry => exact ⟨q', hq', rfl, fun t p hp => hp⟩
  | bytes d q due s₁ hd hq hne hq₁ ho =>
    rw [hc] at hd
    cases hd
    rw [hq'] at hq₁
    cases hq₁
    refine ⟨q, hq, rfl, fun t p hp => ⟨hp.outward, ?_⟩⟩
    rw [← hp.inward, Pipe.afterRead, List.append_assoc, List.take_append_drop]

lemma carries_write (hr : s.manager.streams.get? h = some r) (hc : r.socket = some c) (bytes : Bytes)
    {q' : Connection} (hq' : (s.write h bytes).2.network.get? c = some q') :
    ∃ q, s.network.get? c = some q ∧
      (q.outbound.length ≤ s.manager.options.maxOutboundBytes →
        q'.outbound.length ≤ s.manager.options.maxOutboundBytes) ∧
      ∀ t p, q.Carries t p → q'.Carries t (p.afterWrite bytes (s.write h bytes).1) := by
  cases hq : s.network.get? c with
  | none =>
    have hw := writes hr bytes
    generalize s.write h bytes = a at hw hq'
    cases hw with
    | lost hno =>
      rw [hc] at hno
      cases hno
    | full d hd =>
      rw [hq] at hq'
      cases hq'
    | queued d n s₁ hd hn hq₁ ho =>
      rw [hc] at hd
      cases hd
      rw [hq₁, hq] at hq'
      cases hq'
  | some q =>
    rw [write_eq hr hc hq] at hq' ⊢
    refine ⟨q, rfl, ?_⟩
    split at hq'
    · next hfull =>
      rw [hq] at hq'
      cases hq'
      rw [if_pos hfull]
      exact ⟨id, fun t p hp => hp⟩
    · next hroom =>
      dsimp only at hq'
      rw [Network.get?_send, if_pos rfl, hq] at hq'
      cases hq'
      rw [if_neg hroom]
      refine ⟨fun _ => ?_, fun t p hp => ⟨?_, hp.inward⟩⟩
      · rw [List.length_append, List.length_take]
        omega
      · simp only [Pipe.afterWrite, hp.outward, List.append_assoc]

end Site

namespace Moment

variable {κ : Type} {w w' : Moment κ} {mv : Move κ} {o : Outcome κ} {c : SocketId} {i : Nat}
  {h : Handle} {past : History κ}

def hear (c : SocketId) (t : Daemon.Talk) : Move κ × Outcome κ → Daemon.Talk
  | (.network a, .network reply) => t.hear c ((.network a : Daemon.Act κ), reply)
  | _ => t

/-- What passed between the connection `c` and its peer since they came together. -/
def talk (past : History κ) (c : SocketId) : Daemon.Talk := past.foldl (hear c) ⟨[], []⟩

def follow (i : Nat) (h : Handle) (p : Pipe) (x : Move κ × Outcome κ) : Pipe :=
  if claimed? i x = some h then ⟨[], []⟩
  else
    match x with
    | (.call j (.write g bytes), .call (.written result)) =>
      if j = i ∧ g = h then p.afterWrite bytes result else p
    | (.call j (.read g _), .call (.read result)) =>
      if j = i ∧ g = h then p.afterRead result else p
    | _ => p

/-- What passed through the stream under `h` of manager `i` since it was claimed. -/
def pipe (past : History κ) (i : Nat) (h : Handle) : Pipe := past.foldl (follow i h) ⟨[], []⟩

/-- Whether the bytes of the connection `c` are touched without its manager. -/
def tampers (c : SocketId) : Move κ → Bool
  | .network a => a.tampers c
  | _ => false

lemma talk_concat (past : History κ) (x : Move κ × Outcome κ) (c : SocketId) :
    talk (past ++ [x]) c = hear c (talk past c) x := by
  rw [talk, List.foldl_append]
  rfl

lemma pipe_concat (past : History κ) (x : Move κ × Outcome κ) (i : Nat) (h : Handle) :
    pipe (past ++ [x]) i h = follow i h (pipe past i h) x := by
  rw [pipe, List.foldl_append]
  rfl

lemma follow_read (i : Nat) (h : Handle) (p : Pipe) (k : Nat) (result : Except StreamError Bytes) :
    follow i h p ((.call i (.read h k), .call (.read result)) : Move κ × Outcome κ) =
      p.afterRead result := by
  rw [follow.eq_def, if_neg nofun]
  exact if_pos ⟨rfl, rfl⟩

lemma follow_write (i : Nat) (h : Handle) (p : Pipe) (bytes : Bytes)
    (result : Except StreamError Nat) :
    follow i h p ((.call i (.write h bytes), .call (.written result)) : Move κ × Outcome κ) =
      p.afterWrite bytes result := by
  rw [follow.eq_def, if_neg nofun]
  exact if_pos ⟨rfl, rfl⟩

lemma follow_eq_self (p : Pipe) {x : Move κ × Outcome κ} (hclaim : claimed? i x ≠ some h)
    (hmove : ∀ call, x.1 = .call i call → call.moves? ≠ some h) : follow i h p x = p := by
  rw [follow.eq_def, if_neg hclaim]
  split
  · refine if_neg ?_
    rintro ⟨rfl, rfl⟩
    exact hmove _ rfl rfl
  · refine if_neg ?_
    rintro ⟨rfl, rfl⟩
    exact hmove _ rfl rfl
  · rfl

lemma Orderly.only {j : Nat} {g : Handle} {m m' : Manager κ} {r r' : Stream κ} (hw : w.Orderly)
    (hm : w.manager? i = some m) (hr : m.streams.get? h = some r) (hc : r.socket = some c)
    (hm' : w.manager? j = some m') (hr' : m'.streams.get? g = some r') (hc' : r'.socket = some c) :
    j = i ∧ g = h := by
  have hheld : c ∈ m.held := by simp [Manager.held, (hw.coherent i m hm).mem_keys hr hc]
  by_cases hij : j = i
  · subst hij
    rw [hm] at hm'
    cases hm'
    exact ⟨rfl, (hw.coherent j m hm).eq_of_socket hr hc hr' hc'⟩
  · have hheld' : c ∈ m'.held := by simp [Manager.held, (hw.coherent j m' hm').mem_keys hr' hc']
    exact absurd hheld' ((hw.not_mem_of_mem_held hm hheld).2 j m' hij hm')

/-! ### Connections that nobody has claimed -/

def Waits (w : Moment κ) (c : SocketId) : Prop :=
  c ∈ w.arriving ∨ ∃ i m, w.manager? i = some m ∧ c ∈ m.backlog.sockets

lemma Waits.mem_tokens (hc : w.Waits c) : c ∈ w.tokens := by
  rcases hc with hc | ⟨i, m, hm, hc⟩
  · exact List.mem_append_left _ hc
  · exact mem_tokens_of_mem_held hm (by simp [Manager.held, hc])

lemma Waits.unclaimed (hc : w.Waits c) (hw : w.Orderly) {m : Manager κ} {r : Stream κ}
    (hm : w.manager? i = some m) (hr : m.streams.get? h = some r) : r.socket ≠ some c := by
  intro hrc
  have hkey := (hw.coherent i m hm).mem_keys hr hrc
  rcases hc with hc | ⟨j, m', hm', hc⟩
  · exact (hw.not_mem_of_mem_held hm (by simp [Manager.held, hkey])).1 hc
  · exact (hw.not_mem_deferred hm hkey hm').1 hc

lemma Stage.waits (hst : Stage w mv o w') (hc : w'.Waits c) :
    w.Waits c ∨ ∃ p, mv = .network (.connect p) ∧ o = .network (.socket (some c)) ∧
      w'.network.get? c = some .opened := by
  cases hst with
  | network a =>
    rcases hc with hc | hc
    · rw [arriving, List.mem_append] at hc
      rcases hc with hc | hc
      · exact .inl (.inl (List.mem_append_left _ hc))
      · rcases w.network.awaiting_perform a c hc with hc | ⟨p, rfl, hreply, hopen⟩
        · exact .inl (.inl (List.mem_append_right _ hc))
        · exact .inr ⟨p, rfl, congrArg Outcome.network hreply, hopen⟩
    · exact .inl (.inr hc)
  | note n => exact .inl hc
  | create p =>
    rcases hc with hc | ⟨j, m, hm, hc⟩
    · exact .inl (.inl hc)
    · rw [manager?_create] at hm
      split at hm
      · cases hm
        cases hc
      · exact .inl (.inr ⟨j, m, hm, hc⟩)
  | release j s hj hs =>
    obtain ⟨ds, hds, -⟩ := s.did_release
    left
    rcases hc with hc | ⟨k, m, hm, hc⟩
    · rw [arriving, List.mem_append] at hc
      refine .inl (List.mem_append.mpr (hc.imp id fun hc => ?_))
      have hqueue : awaiting (w.release j s).network.queue = awaiting s.network.queue := hds.traffic.1
      rwa [hqueue, ← ((w.site?_eq_some_iff j s).mp hs).2.1] at hc
    · rw [manager?_release hs] at hm
      split at hm
      · cases hm
      · exact .inr ⟨k, m, hm, hc⟩
  | begin j s hj hs =>
    left
    have hn := ((w.site?_eq_some_iff j s).mp hs).2.1
    rcases hc with hc | ⟨k, m, hm, hc⟩
    · have hbatch : awaiting s.begin.1 = awaiting w.network.queue := hn ▸ s.network.awaiting_poll
      have hframes : (w.begin j s).frames = ⟨j, .events s.begin.1, none⟩ :: w.frames := rfl
      have hqueue : awaiting (w.begin j s).network.queue = [] := rfl
      rw [arriving, hframes, hqueue, List.append_nil, List.flatMap_cons, awaiting_append,
        List.mem_append] at hc
      refine .inl (List.mem_append.mpr (hc.symm.imp id fun hc => ?_))
      rwa [← hbatch]
    · rw [manager?_begin hs] at hm
      split at hm
      · next hjk =>
        subst hjk
        cases hm
        exact .inr ⟨j, s.manager, manager?_of_site? hs, hc⟩
      · exact .inr ⟨k, m, hm, hc⟩
  | @work _ _ j s s' ds fs hwork =>
    left
    obtain ⟨hm, hn, -⟩ := (w.site?_eq_some_iff j s).mp hwork.site
    have hbatch := hwork.batch.subset
    rcases hc with hc | ⟨k, m, hm', hc⟩
    · rw [arriving, List.mem_append] at hc
      refine .inl (List.mem_append.mpr (hc.imp (fun hc => hbatch (List.mem_append_right _ hc))
        fun hc => ?_))
      have hqueue : awaiting (w.during j s' fs).network.queue = awaiting s.network.queue :=
        hwork.did.traffic.1
      rwa [hqueue, ← hn] at hc
    · have hput : (w.put j s').manager? k = some m := hm'
      rw [manager?_put (lt_of_manager? hm)] at hput
      split at hput
      · next hjk =>
        subst hjk
        cases hput
        rcases hwork.did.mem_pending hc with hc | hc
        · exact .inr ⟨j, s.manager, hm, hc⟩
        · exact .inl (List.mem_append_left _ (hbatch (List.mem_append_left _ hc)))
      · exact .inr ⟨k, m, hput, hc⟩

/-- A claim takes a connection that waits, and does nothing to the network. -/
lemma Step.claimed_waits (hst : Step w mv o w') (hw : w.Orderly)
    (hclaim : claimed? i (mv, o) = some h) {m' : Manager κ} {r' : Stream κ}
    (hm' : w'.manager? i = some m') (hr' : m'.streams.get? h = some r') (hc' : r'.socket = some c) :
    w.Waits c ∧ w'.network = w.network := by
  obtain ⟨rfl, ho⟩ := claimed?_eq_some_iff.mp hclaim
  cases hst with
  | call i call s hact hs =>
    obtain ⟨hm, hn, -⟩ := (w.site?_eq_some_iff i s).mp hs
    have hput : (w.put i s.accept.2).manager? i = some m' := hm'
    rw [manager?_put (lt_of_manager? hm), if_pos rfl] at hput
    cases hput
    have haccepted : s.accept.1 = some h := Call.Reply.claimed.inj (Outcome.call.inj ho)
    rcases s.does_accept with ⟨hno, -⟩ | ⟨k, d, hk, hdoes⟩
    · rw [haccepted] at hno
      cases hno
    · rw [haccepted] at hk
      cases hk
      obtain ⟨-, ⟨r, hr, hrd⟩, -⟩ := hdoes.of_claim (hw.coherent_site hs)
      rw [hr] at hr'
      cases hr'
      rw [hc'] at hrd
      cases hrd
      have hpending : c ∈ s.manager.backlog.sockets := by
        cases hdoes with
        | claim k a p b hb hcap hi h =>
          rw [hb]
          exact List.mem_cons_self
      exact ⟨.inr ⟨i, s.manager, hm, hpending⟩, s.network_accept.trans hn.symm⟩

/-! ### Steps -/

lemma Step.exchange (hst : Step w mv o w') (hc : c.num < w.network.nextId)
    (htamper : tampers c mv = false) (hmove : ∀ j s call g r, mv = .call j call →
      w.site? j = some s → call.moves? = some g → s.manager.streams.get? g = some r →
      r.socket ≠ some c) {q' : Connection} (hq' : w'.network.get? c = some q') :
    ∃ q, w.network.get? c = some q ∧ ∀ t, q.Exchange t (hear c t (mv, o)) q' := by
  have hnet : ∀ {j s}, w.site? j = some s → w.network = s.network :=
    fun hs => ((w.site?_eq_some_iff _ _).mp hs).2.1
  have hconvey : Network.Conveys c w.network w'.network → (∀ t, hear c t (mv, o) = t) →
      ∃ q, w.network.get? c = some q ∧ ∀ t, q.Exchange t (hear c t (mv, o)) q' := by
    intro h ht
    obtain ⟨q, hq, hqq'⟩ := h q' hq'
    exact ⟨q, hq, fun t => .conveyed (ht t) hqq'⟩
  cases hst with
  | network a hact => exact w.network.exchange_perform htamper (fun _ => hc) hq'
  | note n hact | create p hact => exact hconvey (.of_eq rfl) fun _ => rfl
  | call j call s hact hs =>
    refine hconvey ?_ fun _ => rfl
    rw [hnet hs]
    exact s.conveys_call call fun g r hg => hmove j s call g r rfl hs hg
  | release j s hact hj hs =>
    refine hconvey ?_ fun _ => rfl
    rw [hnet hs]
    exact s.conveys_release
  | begin j s hact hj hs =>
    refine hconvey ?_ fun _ => rfl
    rw [hnet hs]
    exact s.network.conveys_poll c
  | proceed j a fs s hf hs =>
    refine hconvey ?_ fun _ => rfl
    rw [proceed_eq, hnet hs]
    have hshed := (s.sheds_next a).conveys c
    cases hn : (a.next s).2.2 <;> exact hshed
  | leave j a n fs s hf hs =>
    refine hconvey ?_ fun _ => rfl
    rw [hnet hs]
    exact s.sheds_leave.conveys c

lemma Passage.socket (hp : Passage w i h w' mv o) {m' : Manager κ} {r' : Stream κ}
    (hm' : w'.manager? i = some m') (hr' : m'.streams.get? h = some r') (hc' : r'.socket = some c) :
    claimed? i (mv, o) = some h ∨ claimed? i (mv, o) ≠ some h ∧
      ∃ m r, w.manager? i = some m ∧ m.streams.get? h = some r ∧ r.socket = some c := by
  cases hp with
  | away mv o hm₁ hm₁' ho hcall =>
    rw [hm'] at hm₁'
    cases hm₁'
  | gone hm₁ ha =>
    rw [hm'] at hm₁
    cases hm₁
  | born p m hi hm hs he ha =>
    rw [hm'] at hm
    cases hm
    rw [hs, Arena.get?_empty] at hr'
    cases hr'
  | begun s hs hs' ha ha' | taken s hs hs' ha ha' =>
    have hm := manager?_of_site? hs
    rw [manager?_of_site? hs'] at hm'
    cases hm'
    exact .inr ⟨nofun, s.manager, r', hm, hr', hc'⟩
  | treated mv o s s' t hs hs' ht hb ha =>
    have hm := manager?_of_site? hs
    rw [manager?_of_site? hs'] at hm'
    cases hm'
    have hold : claimed? i (mv, o) ≠ some h → ∀ r, s.manager.streams.get? h = some r →
        r'.socket = r.socket → claimed? i (mv, o) ≠ some h ∧ ∃ m r, w.manager? i = some m ∧
          m.streams.get? h = some r ∧ r.socket = some c :=
      fun hclaim r hr hsocket => ⟨hclaim, s.manager, r, hm, hr, hsocket ▸ hc'⟩
    cases ht.course with
    | spare hr he =>
      cases hb with
      | spare mv o hsettles hn hclaim hbegin => exact .inr (hold hclaim r' (hr ▸ hr') rfl)
    | claim c' hr hr'' he =>
      cases hb with
      | claim => exact .inl (if_pos rfl)
    | touch r hr hc hr'' he =>
      rw [hr''] at hr'
      cases hr'
      cases hb with
      | touch => exact .inr (hold nofun r hr rfl)
    | arm want cb r hr hr'' hw he =>
      rw [hr''] at hr'
      cases hr'
      cases hb with
      | arm => exact .inr (hold nofun r hr rfl)
    | notify cb e r hr hcb ho ht' hd hr'' he =>
      rw [hr''] at hr'
      cases hr'
      cases hb with
      | notify => exact .inr (hold nofun r hr rfl)
    | postpone r hr hc hr'' he =>
      rw [hr''] at hr'
      cases hr'
      rw [hc] at hc'
      cases hc'
    | lose r c' hr hc hi hr'' he =>
      rw [hr''] at hr'
      cases hr'
      cases hc'
    | free r hr hr'' he =>
      rw [hr''] at hr'
      cases hr'

/-! ### Runs -/

/-- The connection `c` carries what its peer and its stream handed to it. -/
structure Piped (c : SocketId) (past : History κ) (w : Moment κ) : Prop where
  waiting : w.Waits c → ∀ q, w.network.get? c = some q → q.Carries (talk past c) ⟨[], []⟩
  claimed : ∀ i m h r q, w.manager? i = some m → m.streams.get? h = some r → r.socket = some c →
    w.network.get? c = some q →
      q.Carries (talk past c) (pipe past i h) ∧ q.outbound.length ≤ m.options.maxOutboundBytes

lemma piped_initial (c : SocketId) (ports : PortSource) : Piped c [] (initial ports : Moment κ) where
  waiting _ q hq := by cases hq
  claimed i m h r q hm hr hc hq := by cases hq

lemma Piped.waiting_step (hp : Piped c past w) (hw : w.Orderly) (hst : Step w mv o w')
    (ht : tampers c mv = false) (hc : w'.Waits c) {q' : Connection}
    (hq' : w'.network.get? c = some q') : q'.Carries (talk (past ++ [(mv, o)]) c) ⟨[], []⟩ := by
  rw [talk_concat]
  rcases (hst.stage hw).waits hc with hwait | ⟨p, rfl, rfl, hopen⟩
  · obtain ⟨q, hq, hx⟩ := hst.exchange (hw.fresh c hwait.mem_tokens) ht
      (fun j s call g r _ hs _ hr => hwait.unclaimed hw (manager?_of_site? hs) hr) hq'
    exact (hp.waiting hwait q hq).exchange (hx _)
  · rw [hopen] at hq'
    cases hq'
    have hfresh : hear c (talk past c) ((.network (.connect p), .network (.socket (some c))) :
        Move κ × Outcome κ) = ⟨[], []⟩ := if_pos rfl
    rw [hfresh]
    exact ⟨rfl, rfl⟩

/-- A stream comes to its connection with all that was sent so far still unread. -/
lemma Piped.claim (hp : Piped c past w) (hw : w.Orderly) (hst : Step w mv o w')
    (hclaim : claimed? i (mv, o) = some h) {m' : Manager κ} {r' : Stream κ} {q' : Connection}
    (hm' : w'.manager? i = some m') (hr' : m'.streams.get? h = some r') (hc' : r'.socket = some c)
    (hq' : w'.network.get? c = some q') :
    q'.Carries (talk (past ++ [(mv, o)]) c) (pipe (past ++ [(mv, o)]) i h) := by
  have hpipe : pipe (past ++ [(mv, o)]) i h = ⟨[], []⟩ := by
    rw [pipe_concat, follow.eq_def, if_pos hclaim]
  obtain ⟨hwait, hnet⟩ := hst.claimed_waits hw hclaim hm' hr' hc'
  obtain ⟨rfl, rfl⟩ := claimed?_eq_some_iff.mp hclaim
  rw [talk_concat, hpipe]
  rw [hnet] at hq'
  exact hp.waiting hwait q' hq'

/-- What a stream takes to write comes behind what it had taken before, and what is read from it is the
first of what was unread. -/
lemma Piped.move (hp : Piped c past w) {call : Call Handle κ} (hst : Step w (.call i call) o w')
    (hcall : call.moves? = some h) {m : Manager κ} {r : Stream κ} (hm : w.manager? i = some m)
    (hr : m.streams.get? h = some r) (hc : r.socket = some c) {q' : Connection}
    (hq' : w'.network.get? c = some q') :
    q'.Carries (talk past c) (follow i h (pipe past i h) (.call i call, o)) ∧
      q'.outbound.length ≤ m.options.maxOutboundBytes := by
  cases hst with
  | call i call s hact hs =>
    obtain ⟨hs, hn, -⟩ := (w.site?_eq_some_iff i s).mp hs
    rw [hm] at hs
    cases hs
    cases call with
    | read g k =>
      cases hcall
      obtain ⟨q, hq, hout, hcarries⟩ := Site.carries_read hr hc k hq'
      rw [← hn] at hq
      obtain ⟨hp, hcap⟩ := hp.claimed i s.manager h r q hm hr hc hq
      simp only [Call.perform, follow_read]
      exact ⟨hcarries _ _ hp, hout ▸ hcap⟩
    | write g bytes =>
      cases hcall
      obtain ⟨q, hq, hcap', hcarries⟩ := Site.carries_write hr hc bytes hq'
      rw [← hn] at hq
      obtain ⟨hp, hcap⟩ := hp.claimed i s.manager h r q hm hr hc hq
      simp only [Call.perform, follow_write]
      exact ⟨hcarries _ _ hp, hcap' hcap⟩
    | openListener callback | closeListener | port | accept | close g | closeOutput g
    | arm g want callback | state g | stats => cases hcall

lemma Piped.claimed_step (hp : Piped c past w) (hw : w.Orderly) (hst : Step w mv o w')
    (ht : tampers c mv = false) {m' : Manager κ} {r' : Stream κ} {q' : Connection}
    (hm' : w'.manager? i = some m') (hr' : m'.streams.get? h = some r') (hc' : r'.socket = some c)
    (hq' : w'.network.get? c = some q') :
    q'.Carries (talk (past ++ [(mv, o)]) c) (pipe (past ++ [(mv, o)]) i h) ∧
      q'.outbound.length ≤ m'.options.maxOutboundBytes := by
  rcases (hst.passage hw i h).socket hm' hr' hc' with hclaim | ⟨hclaim, m, r, hm, hr, hc⟩
  · have hcarries := hp.claim hw hst hclaim hm' hr' hc' hq'
    -- A stream has written nothing when it is claimed, and so nothing is queued for its peer.
    have hempty := hcarries.outward
    rw [pipe_concat, follow.eq_def, if_pos hclaim] at hempty
    have hnil := (List.append_eq_nil_iff.mp hempty.symm).2
    exact ⟨hcarries, hnil ▸ Nat.zero_le _⟩
  · have hopt : m'.options = m.options := by
      have hsame : ∀ m₁, w.manager? i = some m₁ → m₁.options = m.options := by
        intro m₁ hm₁
        rw [hm] at hm₁
        cases hm₁
        rfl
      exact ((hst.stage hw).fate hw i).options (lt_of_manager? hm) hsame m' hm'
    rw [hopt, talk_concat, pipe_concat]
    by_cases hmove : ∃ call, mv = .call i call ∧ call.moves? = some h
    · obtain ⟨call, rfl, hcall⟩ := hmove
      exact hp.move hst hcall hm hr hc hq'
    · -- A call that moves bytes of another stream moves none of this connection.
      have hothers : ∀ j s call g r₁, mv = .call j call → w.site? j = some s →
          call.moves? = some g → s.manager.streams.get? g = some r₁ → r₁.socket ≠ some c := by
        intro j s call g r₁ hcall hs hg hr₁ hc₁
        obtain ⟨rfl, rfl⟩ := hw.only hm hr hc (manager?_of_site? hs) hr₁ hc₁
        exact hmove ⟨call, hcall, hg⟩
      have hkey := (hw.coherent i m hm).mem_keys hr hc
      have hfresh := hw.fresh c (mem_tokens_of_mem_held hm (by simp [Manager.held, hkey]))
      obtain ⟨q, hq, hx⟩ := hst.exchange hfresh ht hothers hq'
      obtain ⟨hcarries, hcap⟩ := hp.claimed i m h r q hm hr hc hq
      rw [follow_eq_self _ hclaim fun call hcall hg => hmove ⟨call, hcall, hg⟩]
      exact ⟨hcarries.exchange (hx _), Nat.le_trans (hx (talk past c)).queued hcap⟩

lemma piped_run {ports : PortSource} {mvs : List (Move κ)}
    (hr : (initial ports).run mvs = some (past, w)) (ht : ∀ mv ∈ mvs, tampers c mv = false) :
    Piped c past w := by
  have hall := run_invariant (P := fun past w =>
    w.Orderly ∧ ((∀ x ∈ past, tampers c x.1 = false) → Piped c past w))
    (fun past w mv o w' hw hs => ?_) ⟨orderly_initial ports, fun _ => piped_initial c ports⟩ hr
  · refine hall.2 fun x hx => ht x.1 ?_
    rw [← run_moves hr]
    exact List.mem_map_of_mem hx
  · have hst := step_cases hs
    refine ⟨(hst.stage hw.1).orderly hw.1, fun ht => ?_⟩
    rw [List.forall_mem_append, List.forall_mem_singleton] at ht
    have hp := hw.2 ht.1
    exact ⟨fun hc q hq => hp.waiting_step hw.1 hst ht.2 hc hq,
      fun i m h r q hm hr hc hq => hp.claimed_step hw.1 hst ht.2 hm hr hc hq⟩

/-- A claimed stream is a reliable pipe with a limit on what it queues, as long as its connection is open
and nobody but the manager puts bytes in or takes bytes out. What it took to write is what the peer took,
what has reached the peer and what is queued, in this order; what was read from it and what is unread is
what the peer sent since it connected. No more than the limit is ever queued, and a write takes what fits
under the limit or, when that is reached, reports that the stream is busy. -/
theorem reliable_pipe {ports : PortSource} {mvs : List (Move κ)} {past : History κ} {w : Moment κ}
    (hrun : (initial ports).run mvs = some (past, w)) {i : Nat} {m : Manager κ} {h : Handle}
    {r : Stream κ} {c : SocketId} {q : Connection} (hm : w.manager? i = some m)
    (hr : m.streams.get? h = some r) (hc : r.socket = some c) (hq : w.network.get? c = some q)
    (ht : ∀ mv ∈ mvs, tampers c mv = false) :
    (pipe past i h).written = (talk past c).taken ++ q.delivered ++ q.outbound ∧
      (pipe past i h).read ++ q.inbound = (talk past c).sent ∧
      q.outbound.length ≤ m.options.maxOutboundBytes ∧
      (w.mayAct = true → ∀ bytes, ∃ w', w.step (.call i (.write h bytes)) = some (.call (.written
        (if q.outbound.length = m.options.maxOutboundBytes then .error .busy
        else .ok (min bytes.length (m.options.maxOutboundBytes - q.outbound.length)))), w')) := by
  obtain ⟨hcarries, hcap⟩ := (piped_run hrun ht).claimed i m h r q hm hr hc hq
  refine ⟨hcarries.outward, hcarries.inward, hcap, fun hact bytes => ?_⟩
  have hs : w.site? i = some ⟨w.network, m, w.journal⟩ := (w.site?_eq_some_iff i _).mpr ⟨hm, rfl, rfl⟩
  rw [step_call hact hs]
  simp only [Call.perform, Site.write_eq (s := ⟨w.network, m, w.journal⟩) hr hc hq]
  refine ⟨_, congrArg some (Prod.ext ?_ rfl)⟩
  by_cases hfull : q.outbound.length = m.options.maxOutboundBytes
  · rw [if_pos hfull, if_pos (Nat.le_of_eq hfull.symm)]
  · rw [if_neg hfull, if_neg (by omega)]

/-- A peer sends three bytes, of which two are read, and takes the first three of seven that are written;
the other four fill the queue. -/
def trickle : List (Move Unit) :=
  [.create ⟨some 9000, 1, 1, 0, 0, 0, 4, 0⟩, .call 0 (.openListener ()), .network (.connect 9000),
    .network (.peerSend ⟨2⟩ [1, 2, 3]), .begin 0, .proceed, .proceed, .proceed, .proceed, .proceed,
    .call 0 .accept, .call 0 (.read ⟨0, 1⟩ 2), .call 0 (.write ⟨0, 1⟩ [7, 8, 9]), .leave, .proceed,
    .begin 0, .proceed, .proceed, .proceed, .proceed, .proceed, .proceed, .network (.peerTake ⟨2⟩),
    .call 0 (.write ⟨0, 1⟩ [4, 5, 6, 7, 8, 9])]

theorem reliable_pipe_full : ∃ past w m r q, (initial .standard).run trickle = some (past, w) ∧
    w.manager? 0 = some m ∧ m.streams.get? ⟨0, 1⟩ = some r ∧ r.socket = some ⟨2⟩ ∧
    w.network.get? ⟨2⟩ = some q ∧ (∀ mv ∈ trickle, tampers ⟨2⟩ mv = false) ∧
    q.inbound = [3] ∧ q.outbound = [4, 5, 6, 7] ∧ (talk past ⟨2⟩).taken = [7, 8, 9] ∧
    (pipe past 0 ⟨0, 1⟩).written = (talk past ⟨2⟩).taken ++ q.delivered ++ q.outbound ∧
    (pipe past 0 ⟨0, 1⟩).read ++ q.inbound = (talk past ⟨2⟩).sent ∧
    q.outbound.length ≤ m.options.maxOutboundBytes ∧
    (w.mayAct = true → ∀ bytes, ∃ w', w.step (.call 0 (.write ⟨0, 1⟩ bytes)) = some (.call (.written
      (if q.outbound.length = m.options.maxOutboundBytes then .error .busy
      else .ok (min bytes.length (m.options.maxOutboundBytes - q.outbound.length)))), w')) :=
  ⟨_, _, _, _, _, rfl, rfl, rfl, rfl, rfl, by decide, rfl, rfl, rfl,
    @reliable_pipe Unit .standard trickle _ _ rfl 0 _ ⟨0, 1⟩ _ ⟨2⟩ _ rfl rfl rfl rfl (by decide)⟩

end Moment

end BoundedStreams
