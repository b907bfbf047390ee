import BoundedStreams.Proofs.Agendas
import BoundedStreams.Proofs.Notices
import BoundedStreams.Proofs.Pipes
import BoundedStreams.Proofs.Queue

/-! What a peer sends in one piece or in two makes no difference. The network tells of each piece, but a
stream hears of its connection once in a turn, and whatever its callback does, the second event finds it
told already. So the turn has one more job, and that does nothing. -/

namespace BoundedStreams

def SocketEvent.received (c : SocketId) : SocketEvent := ⟨c, .received⟩

namespace Network

lemma contains_update (n : Network) (c : SocketId) (f : Connection → Connection) :
    (n.update c f).connections.contains c = n.connections.contains c := by
  rw [update, Table.contains, Table.contains, Table.get?_modify, if_pos rfl, Option.isSome_map]

lemma update_update (n : Network) (c : SocketId) (f g : Connection → Connection) :
    (n.update c f).update c g = n.update c fun x => g (f x) := by
  simp only [update, Table.modify, List.map_map]
  congr 3
  funext e
  by_cases he : e.1 = c <;> simp [he]

/-- In one piece or in two, the same bytes come in. They are told of once or twice. -/
lemma peerSend_append (n : Network) (c : SocketId) (a b : Bytes) :
    n.peerSend c (a ++ b) = (n.peerSend c a).peerSend c b ∨
      ∃ n₀ : Network, n.peerSend c (a ++ b) = n₀.behind (n.queue ++ [.received c]) ∧
        (n.peerSend c a).peerSend c b = n₀.behind (n.queue ++ [.received c, .received c]) := by
  cases hopen : n.connections.contains c with
  | false => exact .inl (by simp [peerSend, hopen])
  | true =>
    right
    refine ⟨{ n.update c fun x => { x with inbound := x.inbound ++ (a ++ b) } with queue := [] }, ?_, ?_⟩
    · simp [peerSend, hopen, behind, enqueue, update, SocketEvent.received]
    · have hopen' : ∀ f k, ((n.update c f).enqueue c k).connections.contains c = true :=
        fun f k => (n.contains_update c f).trans hopen
      have hcomm : ∀ (m : Network) f k, (m.enqueue c k).update c f = (m.update c f).enqueue c k :=
        fun _ _ _ => rfl
      rw [peerSend, peerSend, if_pos hopen, if_pos (hopen' _ _), hcomm, update_update]
      simp [behind, enqueue, update, SocketEvent.received, List.append_assoc]

end Network

namespace Site

variable {κ : Type}

lemma evaluate_cases (s : Site κ) (h : Handle) :
    s.evaluate h = (s, none) ∨ ∃ cb e, (s.evaluate h).2 = some (.event cb h e) := by
  rw [evaluate]
  split
  · exact .inl rfl
  · split
    · split
      · exact .inl rfl
      · split
        · exact .inl rfl
        · exact .inr ⟨_, _, rfl⟩
    · exact .inl rfl

/-- Word of bytes is for the stream that has the connection; it is told, or nothing happens. -/
lemma handle_received (s : Site κ) (c : SocketId) : s.handle (.received c) = (s, none) ∨
    ∃ h cb e, s.manager.sockets.get? c = some h ∧
      (s.handle (.received c)).2 = some (.event cb h e) ∧
      Treats h (.notify cb e) s (s.handle (.received c)).1 := by
  cases hc : s.manager.sockets.get? c with
  | none =>
    left
    simp only [SocketEvent.received, handle, hc]
  | some h =>
    have hhandle : s.handle (.received c) = s.evaluate h := by
      simp only [SocketEvent.received, handle, hc]
    rw [hhandle]
    rcases s.evaluate_cases h with he | ⟨cb, e, he⟩
    · exact .inl he
    · refine .inr ⟨h, cb, e, rfl, he, ?_⟩
      rcases s.tells_evaluate h h with ⟨hnot, -⟩ | ⟨cb', e', he', ht⟩
      · exact absurd he (hnot cb e)
      · rw [he] at he'
        cases he'
        exact ht

end Site

namespace Moment

variable {κ : Type} {w w' u : Moment κ} {mv : Move κ} {o : Outcome κ} {i : Nat} {c : SocketId}
  {past : History κ}

/-! ### A manager that has heard of a connection -/

/-- In this turn manager `i` tells nobody of the connection `c` any more: a stream that has it was told, and
none will get it. -/
structure Heeded (w : Moment κ) (i : Nat) (c : SocketId) : Prop where
  here : (w.manager? i).isSome
  known : c.num < w.network.nextId
  claimed : ¬ w.Waits c
  told : ∀ m h r, w.manager? i = some m → m.streams.get? h = some r → r.socket = some c →
    r.notifiedTurn = some m.turns

/-- Whatever is called in the turn keeps it so. -/
lemma Heeded.step (hh : w.Heeded i c) (hheard : Heard past w) (hst : Step w mv o u)
    (hi : w.inTurn i = true) : u.Heeded i c := by
  have hw := hheard.numbered.orderly
  have hstage := hst.stage hw
  obtain ⟨hbegin, hrelease⟩ := hst.ne_of_inTurn hi
  constructor
  case here =>
    cases hst.view hw i with
    | apart mv o hm ha hn hc hb hr => exact hm ▸ hh.here
    | born p hj hm ha => exact hm ▸ rfl
    | gone hm ha ha' => exact absurd rfl hrelease
    | begin s hs hs' ha ha' | call x s hs hs' ha | job a s hs ha hs' ha' | leave s hs hs' ha =>
      exact (manager?_of_site? hs') ▸ rfl
  case known => exact Nat.lt_of_lt_of_le hh.known hstage.nextId_le
  case claimed =>
    intro hc
    rcases hstage.waits hc with hc | ⟨p, rfl, ho, -⟩
    · exact hh.claimed hc
    · cases hst with
      | network x hact =>
        have hnew : (w.network.connect p).1 = some c :=
          Network.Reply.socket.inj (Outcome.network.inj ho)
        rcases w.network.connect_eq p with he | ⟨l, he⟩
        · rw [he] at hnew
          cases hnew
        · rw [he] at hnew
          cases hnew
          exact Nat.lt_irrefl _ hh.known
  case told =>
    intro m' h r' hm' hr' hc'
    have hp := hst.passage hw i h
    rcases hp.socket hm' hr' hc' with hclaim | ⟨hclaim, m, r, hm, hr, hc⟩
    · exact absurd (hst.claimed_waits hw hclaim hm' hr' hc').1 hh.claimed
    · have htold := (hheard.stamped i m h r hm hr).mp (hh.told m h r hm hr hc)
      exact (hheard.stamped_step hp hm' hr').1.mpr
        (told_concat.mpr (.inr ⟨hbegin, hclaim, htold⟩))

lemma Heeded.handle {s : Site κ} (hh : w.Heeded i c) (hw : w.Orderly) (hs : w.site? i = some s) :
    s.handle (.received c) = (s, none) := by
  rcases s.handle_received c with he | ⟨h, cb, e, hc, -, ht⟩
  · exact he
  · have hm := manager?_of_site? hs
    obtain ⟨r, hr, hrc⟩ := ((hw.coherent_site hs).linked h c).mp hc
    cases ht.course with
    | notify cb e r' hr' hcb ho hnot hd hr'' he =>
      rw [hr] at hr'
      cases hr'
      exact absurd (hh.told _ h r hm hr hrc) hnot

lemma heeded_of_told {m : Manager κ} {h : Handle} {r : Stream κ} (hw : w.Orderly)
    (hm : w.manager? i = some m) (hr : m.streams.get? h = some r) (hc : r.socket = some c)
    (ht : r.notifiedTurn = some m.turns) : w.Heeded i c := by
  have hkey := (hw.coherent i m hm).mem_keys hr hc
  constructor
  case here => exact hm ▸ rfl
  case known => exact hw.fresh c (mem_tokens_of_mem_held hm (by simp [Manager.held, hkey]))
  case claimed => exact fun hwait => hwait.unclaimed hw hm hr hc
  case told =>
    intro m' g r' hm' hr' hc'
    rw [hm] at hm'
    cases hm'
    obtain rfl := (hw.coherent i m hm).eq_of_socket hr hc hr' hc'
    rw [hr] at hr'
    cases hr'
    exact ht

/-! ### Two runs side by side -/

/-- The second moment has the word of `c` once more than the first, if it still has it. -/
inductive Lag (c : SocketId) : Moment κ → Moment κ → Prop
  | settled (w : Moment κ) : Lag c w w
  | queued (w : Moment κ) (q : List SocketEvent) :
      Lag c (w.behind (q ++ [.received c])) (w.behind (q ++ [.received c, .received c]))
  | listed (w : Moment κ) (i : Nat) (n : Option (Notice κ)) (es es' : List SocketEvent)
      (hf : w.frame? i = some ⟨i, .events (es ++ .received c :: es'), n⟩) :
      Lag c w (w.replan i (.events (es ++ .received c :: .received c :: es')))
  | heeded (w : Moment κ) (i : Nat) (n : Notice κ) (es : List SocketEvent)
      (hf : w.frame? i = some ⟨i, .events es, some n⟩) (hh : w.Heeded i c) :
      Lag c w (w.replan i (.events (.received c :: es)))

/-- The second run makes the same move, and then perhaps does the job that it has to spare. -/
def Keeps (c : SocketId) (mv : Move κ) (o : Outcome κ) (u w' : Moment κ) : Prop :=
  (∃ u', w'.step mv = some (o, u') ∧ Lag c u u') ∨
    ∃ u', w'.step mv = some (o, u') ∧ u'.step .proceed = some (.done, u)

lemma keeps_begin {q : List SocketEvent} (hw : (w.behind (q ++ [.received c])).Orderly)
    (hst : Step (w.behind (q ++ [.received c])) (.begin i) o u) :
    Keeps c (.begin i) o u (w.behind (q ++ [.received c, .received c])) := by
  have hu := (hst.stage hw).orderly hw
  cases hst with
  | begin i s hact hi hs =>
    obtain ⟨s₀, rfl, hs₀⟩ := site?_behind hs
    have hstep := Step.begin (w := w.behind (q ++ [.received c, .received c])) i _ hact hi (hs₀ _)
    have hpoll : ∀ p, (s₀.behind p).begin =
        (p ++ s₀.network.poll.1, { s₀.begin.2 with network := s₀.network.poll.2 }) := by
      intro p
      rw [Site.begin, Site.network_behind, Network.poll_behind]
      rfl
    -- The turn takes all that is queued, the word of `c` once or twice.
    have hframes : ((w.behind (q ++ [.received c])).begin i (s₀.behind (q ++ [.received c]))).frames =
        ⟨i, .events (q ++ .received c :: s₀.network.poll.1), none⟩ :: w.frames := by
      simp [Moment.begin, during, hpoll, behind]
    have hlag := Lag.listed _ i none q _ ((frame?_cons hframes i).trans (if_pos rfl))
    rw [replan_eq hu hframes] at hlag
    refine .inl ⟨_, hstep.eq_some, ?_⟩
    convert hlag using 1
    simp [Moment.begin, during, put, hpoll, behind]

lemma keeps_job {es es' : List SocketEvent} {fs : List (Frame κ)} (hw : w.Orderly)
    (hf : w.frames = ⟨i, .events (es ++ .received c :: es'), none⟩ :: fs)
    (hst : Step w .proceed o u) :
    Keeps c .proceed o u (w.replan i (.events (es ++ .received c :: .received c :: es'))) := by
  have hu := (hst.stage hw).orderly hw
  obtain ⟨s, hs⟩ : ∃ s, w.site? i = some s := by
    cases hst with
    | proceed k a gs s hf' hs =>
      rw [hf] at hf'
      cases hf'
      exact ⟨s, hs⟩
  cases es with
  | cons e es =>
    obtain ⟨hframes, -, hstep⟩ := hst.event hw hf hs
    have hf' := (frame?_cons hframes i).trans (if_pos rfl)
    exact .inl ⟨_, hstep _, .listed u i _ es es' hf'⟩
  | nil =>
    obtain ⟨hframes, hsite, hstep⟩ := hst.event hw hf hs
    rcases s.handle_received c with he | ⟨h, cb, e, hc, he, ht⟩
    · -- Nobody is told, and nobody is told the second time.
      rw [he] at hframes hsite
      exact .inr ⟨_, hstep _, step_silent hu hframes hsite he⟩
    · rw [he] at hframes hsite
      obtain ⟨r, hr, hrc⟩ := ((hw.coherent_site hs).linked h c).mp hc
      have hm := manager?_of_site? hsite
      have hheeded : u.Heeded i c := by
        cases ht.course with
        | notify cb e r' hr' hcb ho hnot hd hr'' hend =>
          rw [hr] at hr'
          cases hr'
          exact heeded_of_told hu hm hr'' hrc (congrArg some ht.turns.symm)
      have hf' := (frame?_cons hframes i).trans (if_pos rfl)
      exact .inl ⟨_, hstep _, .heeded u i _ es' hf' hheeded⟩

lemma Lag.step (hl : Lag c w w') (hheard : Heard past w) (hst : Step w mv o u)
    (hpoll : mv ≠ .network .poll) : Keeps c mv o u w' := by
  have hw := hheard.numbered.orderly
  cases hl with
  | settled w => exact .inl ⟨u, hst.eq_some, .settled u⟩
  | queued w q =>
    by_cases hbegin : ∃ i, mv = .begin i
    · obtain ⟨i, rfl⟩ := hbegin
      exact keeps_begin hw hst
    · obtain ⟨u₀, rfl, hst'⟩ := hst.behind hpoll fun i he => hbegin ⟨i, he⟩
      exact .inl ⟨_, (hst' _).eq_some, .queued u₀ q⟩
  | listed w i n es es' hf =>
    cases hj : w.job? i with
    | none =>
      obtain ⟨n', hf', -, hst'⟩ := hst.replan hf hj
      exact .inl ⟨_, (hst' _).eq_some, .listed u i n' es es' hf'⟩
    | some a =>
      obtain rfl := move_of_job? hj hst
      obtain ⟨fs, hframes⟩ := job?_eq_some_iff.mp hj
      rw [frame?_cons hframes, if_pos rfl] at hf
      cases hf
      exact keeps_job hw hframes hst
  | heeded w i n es hf hh =>
    obtain ⟨n', hf', hn', hst'⟩ := hst.replan hf (job?_of_calling hf)
    have hh' := hh.step hheard hst (inTurn_of_frame? hf)
    rcases hn' with rfl | hjob
    · exact .inl ⟨_, (hst' _).eq_some, .heeded u i n es hf' hh'⟩
    · -- The callback has returned, and the spare job comes.
      obtain ⟨fs, hframes⟩ := job?_eq_some_iff.mp hjob
      obtain ⟨m, hm⟩ := Option.isSome_iff_exists.mp hh'.here
      have hs : u.site? i = some ⟨u.network, m, u.journal⟩ :=
        (u.site?_eq_some_iff i _).mpr ⟨hm, rfl, rfl⟩
      have hu := (hst.stage hw).orderly hw
      exact .inr ⟨_, (hst' _).eq_some, step_silent hu hframes hs (hh'.handle hu hs)⟩

lemma lag_pieces (w : Moment κ) (c : SocketId) (a b : Bytes) :
    Lag c { w with network := w.network.peerSend c (a ++ b) }
      { w with network := (w.network.peerSend c a).peerSend c b } := by
  rcases w.network.peerSend_append c a b with he | ⟨n, he, he'⟩
  · rw [he]
    exact .settled _
  · rw [he, he']
    exact .queued { w with network := n } w.network.queue

/-- A history with at most one more job, which told nobody anything. -/
def Padded (es es' : History κ) : Prop :=
  es' = es ∨ ∃ first rest, es = first ++ rest ∧ es' = first ++ (.proceed, .done) :: rest

lemma Padded.cons {es es' : History κ} (h : Padded es es') (x : Move κ × Outcome κ) :
    Padded (x :: es) (x :: es') := by
  rcases h with rfl | ⟨first, rest, rfl, rfl⟩
  · exact .inl rfl
  · exact .inr ⟨x :: first, rest, rfl, rfl⟩

lemma Lag.run {mvs : List (Move κ)} {es : History κ} (hl : Lag c w w') (hheard : Heard past w)
    (hpoll : .network .poll ∉ mvs) (hr : w.run mvs = some (es, u)) :
    ∃ es' u', w'.run (es'.map (·.1)) = some (es', u') ∧ Padded es es' ∧ Lag c u u' := by
  induction mvs generalizing w w' past es with
  | nil =>
    cases hr
    exact ⟨[], w', rfl, .inl rfl, hl⟩
  | cons mv mvs ih =>
    obtain ⟨o, v, es, hs, hrest, rfl⟩ := run_cons hr
    simp only [List.mem_cons, not_or] at hpoll
    rcases hl.step hheard (step_cases hs) (Ne.symm hpoll.1) with ⟨v', hs', hl'⟩ | ⟨v', hs', hspare⟩
    · obtain ⟨es', u', hr', hpad, hl''⟩ := ih hl' (hheard.step hs) hpoll.2 hrest
      refine ⟨(mv, o) :: es', u', ?_, hpad.cons _, hl''⟩
      exact run_append (run_single hs') hr'
    · -- From here on the runs are one.
      refine ⟨(mv, o) :: (.proceed, .done) :: es, u, ?_, .inr ⟨[(mv, o)], es, rfl, rfl⟩, .settled u⟩
      rw [List.map_cons, List.map_cons, run_moves hrest]
      exact run_append (run_single hs') (run_append (run_single hspare) hrest)

/-- The moments differ at most in events that are still to be looked at. -/
structure Agree (w w' : Moment κ) : Prop where
  managers : w'.managers = w.managers
  journal : w'.journal = w.journal
  ports : w'.ports = w.ports
  network : { w'.network with queue := w.network.queue } = w.network
  frames : w'.frames.map (fun f => (f.manager, f.calling)) =
    w.frames.map fun f => (f.manager, f.calling)
  quiet : w.network.queue = [] → w.frames = [] → w' = w

lemma agree_replan {f : Frame κ} (hf : w.frame? i = some f) (b : Agenda) :
    w.Agree (w.replan i b) where
  managers := rfl
  journal := rfl
  ports := rfl
  network := rfl
  frames := by
    rw [replan, List.map_map]
    apply List.map_congr_left
    intro g _
    rfl
  quiet _ hnil := by simp [frame?, hnil] at hf

lemma Lag.agree (hl : Lag c w w') : w.Agree w' := by
  cases hl with
  | settled w => exact ⟨rfl, rfl, rfl, rfl, rfl, fun _ _ => rfl⟩
  | queued w q => exact ⟨rfl, rfl, rfl, rfl, rfl, fun hnil => by simp [behind, Network.behind] at hnil⟩
  | listed w i n es es' hf => exact agree_replan hf _
  | heeded w i n es hf hh => exact agree_replan hf _

lemma Agree.mayAct (h : w.Agree w') : w'.mayAct = w.mayAct := by
  have hhead : ∀ v : Moment κ, v.mayAct =
      (v.frames.map fun f => (f.manager, f.calling)).head?.all (·.2.isSome) := by
    intro v
    rw [Moment.mayAct]
    cases v.frames <;> rfl
  rw [hhead, hhead, h.frames]

lemma Padded.commands {es es' : History κ} (h : Padded es es') :
    commands (es'.map (·.1)) = commands (es.map (·.1)) := by
  rcases h with rfl | ⟨first, rest, rfl, rfl⟩
  · rfl
  · rw [List.map_append, List.map_append, commands_append, commands_append]
    rfl

/-- Whether a peer sends its bytes in one piece or in two makes no difference, at any point of a run, be it in a
callback. With two pieces there is at most one more job, one that tells nobody anything. All else happens as
it did: the same moves have the same outcomes, and no other run comes of the same commands. In the end all
managers, the notes and the network are the same, but for an event that may still wait to be looked at. -/
theorem chunks_unobservable {ports : PortSource} {before after : List (Move κ)} {a b : Bytes}
    {es : History κ}
    (hr : (initial ports).run (before ++ .network (.peerSend c (a ++ b)) :: after) = some (es, w))
    (hpoll : .network .poll ∉ after) :
    ∃ past rest rest' w',
      es = past ++ (.network (.peerSend c (a ++ b)), .network .done) :: rest ∧
      (initial ports).run (before ++ .network (.peerSend c a) :: .network (.peerSend c b) ::
          rest'.map (·.1)) =
        some (past ++ (.network (.peerSend c a), .network .done) ::
          (.network (.peerSend c b), .network .done) :: rest', w') ∧
      Padded rest rest' ∧ w.Agree w' ∧
      (∀ mvs es'' w'', (initial ports).run (before ++ .network (.peerSend c a) ::
          .network (.peerSend c b) :: mvs) = some (es'', w'') →
        commands mvs = commands after → w.mayAct = true → w''.mayAct = true →
          mvs = rest'.map (·.1) ∧ w'' = w') := by
  obtain ⟨past, w₀, o, w₁, rest, hbefore, hstep, hafter, rfl⟩ := run_at hr
  have hheard := heard_run (run_step hbefore hstep)
  have hact : w₀.mayAct = true := by simpa using mt (step_cases hstep).proceed_iff.mpr nofun
  rw [step_network hact] at hstep
  cases hstep
  have hfirst := step_network hact (.peerSend c a)
  have hsecond := step_network
    (w := { w₀ with network := (w₀.network.perform (.peerSend c a)).2 }) hact (.peerSend c b)
  obtain ⟨rest', w', hrest', hpad, hlag'⟩ := (w₀.lag_pieces c a b).run hheard hpoll hafter
  have hr' := run_append hbefore
    (run_append (run_single hfirst) (run_append (run_single hsecond) hrest'))
  refine ⟨past, rest, rest', w', rfl, hr', hpad, hlag'.agree, fun mvs es'' w'' hr'' hmvs hw hw'' => ?_⟩
  have hsame := run_determined hr'' hr' ?_ hw'' (hlag'.agree.mayAct.trans hw)
  · rw [hsame] at hr''
    cases hr''.symm.trans hr'
    have htail := List.append_cancel_left hsame
    simpa using htail
  · have hcommands : commands (rest'.map (·.1)) = commands mvs := by
      rw [hpad.commands, run_moves hafter, hmvs]
    have hpieces : ∀ mvs : List (Move κ),
        commands (.network (.peerSend c a) :: .network (.peerSend c b) :: mvs) =
          .network (.peerSend c a) :: .network (.peerSend c b) :: commands mvs := fun _ => rfl
    rw [commands_append, commands_append, List.singleton_append, List.singleton_append, hpieces,
      hpieces, hcommands]

/-- In the callback of an offer the connection is claimed and armed. -/
def claiming : List (Move Unit) :=
  arrival ++ [.begin 0, .proceed, .proceed, .proceed, .proceed, .call 0 .accept,
    .call 0 (.arm ⟨0, 1⟩ .read (some ()))]

/-- The stream hears of its bytes, reads one of them and arms itself again. -/
def rearming : List (Move Unit) :=
  [.leave, .proceed, .begin 0, .proceed, .call 0 (.read ⟨0, 1⟩ 1),
    .call 0 (.arm ⟨0, 1⟩ .read (some ())), .leave, .proceed, .proceed, .proceed, .proceed]

theorem chunks_unobservable_rearmed : ∃ es w past rest rest',
    (initial .standard).run (claiming ++ .network (.peerSend ⟨2⟩ ([1] ++ [2, 3])) :: rearming) =
      some (es, w) ∧
    es = past ++ (.network (.peerSend ⟨2⟩ ([1] ++ [2, 3])), .network .done) :: rest ∧
    es[14]? = some (.proceed, .notice 0 (.event () ⟨0, 1⟩ .readable)) ∧
    (initial .standard).run (claiming ++ .network (.peerSend ⟨2⟩ [1]) ::
        .network (.peerSend ⟨2⟩ [2, 3]) :: rest'.map (·.1)) =
      some (past ++ (.network (.peerSend ⟨2⟩ [1]), .network .done) ::
        (.network (.peerSend ⟨2⟩ [2, 3]), .network .done) :: rest', w) ∧
    Padded rest rest' := by
  have hrun : ∃ es w, (initial .standard).run
      (claiming ++ .network (.peerSend ⟨2⟩ ([1] ++ [2, 3])) :: rearming) = some (es, w) ∧
      es[14]? = some (.proceed, .notice 0 (.event () ⟨0, 1⟩ .readable)) ∧
      w.network.queue = [] ∧ w.frames = [] := ⟨_, _, rfl, rfl, rfl, rfl⟩
  obtain ⟨es, w, hr, hnotice, hqueue, hframes⟩ := hrun
  obtain ⟨past, rest, rest', w', hes, hr', hpad, hagree, -⟩ :=
    chunks_unobservable hr (by simp [rearming])
  obtain rfl := hagree.quiet hqueue hframes
  exact ⟨es, w', past, rest, rest', hr, hes, hnotice, hr', hpad⟩

end Moment

end BoundedStreams
