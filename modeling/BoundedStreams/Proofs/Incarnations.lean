import BoundedStreams.Proofs.Confinement
import BoundedStreams.Proofs.Turnover
import BoundedStreams.Proofs.Usage

/-! Listeners come and go at one manager, on one port or on several. Each has its own id, and what came
in for an earlier one does not reach the later ones. -/

namespace BoundedStreams

namespace Site

variable {κ : Type}

lemma manager_aborts (cs : List SocketId) (s : Site κ) :
    (cs.foldl abort s).manager = { s.manager with
      deferred := s.manager.deferred ++ if s.manager.depth = 0 then [] else cs } := by
  induction cs generalizing s with
  | nil =>
    rw [ite_self, List.append_nil]
    rfl
  | cons c cs ih =>
    rw [List.foldl_cons, ih, manager_abort, List.append_assoc]
    split
    · rfl
    · rfl

/-- With the listener goes the backlog. The streams stay, and none of their sockets is given up. -/
lemma closeListener_keeps (s : Site κ) (hshut : s.manager.listener = none → s.manager.backlog = []) :
    s.closeListener.manager.listener = none ∧ s.closeListener.manager.backlog = [] ∧
      s.closeListener.manager.streams = s.manager.streams ∧
      s.closeListener.manager.sockets = s.manager.sockets ∧
      s.closeListener.manager.deferred ⊆ s.manager.deferred ++ s.manager.backlog.sockets := by
  rw [closeListener]
  split
  · next hl => exact ⟨hl, hshut hl, rfl, rfl, List.subset_append_left _ _⟩
  · next l hl =>
    have haborts := manager_aborts s.manager.backlog.sockets { s with
      network := s.network.closeListener l.socket
      manager := { s.manager with listener := none, backlog := [] } }
    dsimp only [recordOccupancy, note, count] at haborts ⊢
    rw [haborts]
    refine ⟨rfl, rfl, rfl, rfl, ?_⟩
    dsimp only
    split
    · rw [List.append_nil]
      exact List.subset_append_left _ _
    · exact List.Subset.refl _

lemma late_onAccepted {s : Site κ} (hd : s.manager.depth = 0) (c : SocketId) {l : SocketId}
    (hl : ¬ s.manager.front.Listens l) : s.onAccepted c l =
      { s with network := s.network.close c, journal := s.journal.note (.lateConnection c) } := by
  have hl' : s.manager.listener.map (·.socket) ≠ some l := hl
  have hd' : (s.note (.lateConnection c)).manager.depth = 0 := hd
  rw [onAccepted, if_pos hl', abort_eq_of_depth_eq_zero hd']
  rfl

/-- A listener that is open now and was not before has the id that the network gave out last. -/
lemma listener_openListener (s : Site κ) (cb : κ) {l : Listener κ}
    (hl : (s.openListener cb).2.manager.listener = some l) : s.manager.listener = some l ∨
      l.socket = ⟨s.network.nextId⟩ ∧
        (s.openListener cb).2.network.nextId = s.network.nextId + 1 := by
  obtain ⟨q, n, -, -, -, hbind⟩ := s.network.bind_cases s.manager.port
  rw [openListener] at hl ⊢
  dsimp only at hl ⊢
  by_cases hopen : s.manager.listener.isSome = true
  · rw [if_pos hopen] at hl
    exact .inl hl
  rw [if_neg hopen] at hl ⊢
  rcases hbind with hbind | ⟨-, hbind⟩
  · rw [hbind] at hl
    exact .inl hl
  · rw [hbind] at hl ⊢
    cases hl
    exact .inr ⟨rfl, rfl⟩

end Site

namespace Moment

variable {κ : Type} {w w' : Moment κ} {i : Nat} {c l : SocketId} {mv : Move κ} {o : Outcome κ}

lemma reaches_of_mem_trace {mvs : List (Move κ)} {es : History κ} (hr : w.run mvs = some (es, w'))
    {y : Stride κ} (hy : y ∈ w.trace mvs) :
    w.Reaches y.before ∧ y.before.Reaches y.after ∧ y.after.Reaches w' := by
  obtain ⟨first, rest, htr⟩ := List.append_of_mem hy
  obtain ⟨mvs₁, mvs₂, es₁, es₂, -, hr₁, -, hstep, hr₂, -⟩ := trace_split hr htr
  exact ⟨.of_run hr₁, .step _ _ hstep, .of_run hr₂⟩

/-! ### Ids of listeners -/

lemma listening?_eq_none (hm : w.manager? i = none) : w.listening? i = none := by
  rw [listening?, hm, Option.bind_none]

/-- Only opening and closing it does something to a listener. -/
lemma Service.listener {f f' : Front κ} (h : Service w i f mv o f') : f'.listener = f.listener ∨
    (∃ cb, mv = .call i (.openListener cb)) ∧ f.listener = none ∨
    mv = .call i .closeListener ∧ f'.listener = none := by
  cases h with
  | idle | claimed | closed | read | withdrawn | lost | offered => exact .inl rfl
  | arrived c l es hj hl f' hf => cases hf <;> exact .inl rfl
  | opened cb reply l hl => exact .inr (.inl ⟨⟨cb, rfl⟩, hl⟩)
  | shut hl => exact .inr (.inr ⟨rfl, rfl⟩)

/-- A listener that is open now was open before, or its id is the last that was given out. -/
lemma Step.listening (h : Step w mv o w') (hserves : Serves w i w' mv o)
    (hl : w'.listening? i = some l) : w.listening? i = some l ∨
      l = ⟨w.network.nextId⟩ ∧ w'.network.nextId = w.network.nextId + 1 := by
  cases hserves with
  | away mv o hm hm' | gone m hm hm' =>
    rw [listening?_eq_none hm'] at hl
    cases hl
  | born p hi hm =>
    rw [listening?, hm] at hl
    cases hl
  | serves mv o m m' hm hm' hs hr =>
    rw [listening?_eq_some_iff hm', Front.Listens] at hl
    rw [listening?_eq_some_iff hm, Front.Listens]
    rcases hs.listener with he | ⟨⟨cb, rfl⟩, -⟩ | ⟨-, hno⟩
    · exact .inl (he ▸ hl)
    · cases h with
      | call _ _ s hact hsite =>
        obtain ⟨hms, hn, -⟩ := (w.site?_eq_some_iff i s).mp hsite
        rw [(w.manager?_put (lt_of_manager? hm) _ i).trans (if_pos rfl)] at hm'
        obtain rfl := Option.some.inj hm'
        obtain rfl := Option.some.inj (hm.symm.trans hms)
        obtain ⟨k, hk, rfl⟩ := Option.map_eq_some_iff.mp hl
        rw [hn]
        rcases s.listener_openListener cb hk with hold | hnew
        · exact .inl (congrArg (Option.map Listener.socket) hold)
        · exact .inr hnew
    · rw [hno] at hl
      cases hl

lemma listening_lt {ports : PortSource} (hreach : (initial ports).Reaches w)
    (hl : w.listening? i = some l) : l.num < w.network.nextId := by
  refine Reaches.invariant (P := fun u => ∀ i l, u.listening? i = some l → l.num < u.network.nextId)
    (.refl _) (fun u mv o u' hu hlt h i l hl => ?_) hreach (fun i l hl => ?_) i l hl
  · rcases h.listening (hu.serves h i) hl with hold | ⟨rfl, hn⟩
    · exact Nat.lt_of_lt_of_le (hlt i l hold) (h.stage hu.orderly).nextId_le
    · rw [hn]
      exact Nat.lt_succ_self _
  · simp [listening?, manager?, initial] at hl

lemma Reaches.nextId_le {ports : PortSource} (hreach : (initial ports).Reaches w)
    (h : w.Reaches w') : w.network.nextId ≤ w'.network.nextId :=
  hreach.invariant (P := fun u => w.network.nextId ≤ u.network.nextId)
    (fun _ _ _ _ hu hle h => Nat.le_trans hle (h.stage hu.orderly).nextId_le) h (Nat.le_refl _)

/-! ### Connections that come too late -/

/-- The connection is known no longer, neither to the network nor to a manager. -/
def Departed (w : Moment κ) (c : SocketId) : Prop := w.Landed c ∧ c ∉ w.held

lemma Departed.step (hw : w.Orderly) (hc : w.Departed c) (h : Stage w mv o w') :
    w'.Departed c := by
  refine ⟨hc.1.stage h, fun hmem => ?_⟩
  rcases h.mem_held hw hmem with hheld | harr
  · exact hc.2 hheld
  · exact hc.1.2 harr

lemma Landed.reaches {ports : PortSource} (hreach : (initial ports).Reaches w) (hc : w.Landed c)
    (h : w.Reaches w') : w'.Landed c :=
  hreach.invariant (fun _ _ _ _ hu hc h => Landed.stage hc (h.stage hu.orderly)) h hc

lemma Departed.reaches {ports : PortSource} (hreach : (initial ports).Reaches w)
    (hc : w.Departed c) (h : w.Reaches w') : w'.Departed c :=
  hreach.invariant (fun _ _ _ _ hu hc h => Departed.step hu.orderly hc (h.stage hu.orderly)) h hc

/-- The moment in which manager `i` has closed what came in too late. -/
def late (w : Moment κ) (i : Nat) (c : SocketId) (es : List SocketEvent) (fs : List (Frame κ)) :
    Moment κ :=
  { w with
    network := w.network.close c
    journal := w.journal.note (.lateConnection c)
    frames := ⟨i, .events es, none⟩ :: fs }

/-- What came in for a listener that is not open is closed. No manager notices. -/
lemma Step.late (h : Step w mv o w') (hw : w.Orderly) {es : List SocketEvent}
    (hj : w.job? i = some (.events (⟨c, .accepted l⟩ :: es))) (hl : w.listening? i ≠ some l) :
    ∃ fs, w.frames = ⟨i, .events (⟨c, .accepted l⟩ :: es), none⟩ :: fs ∧ w' = w.late i c es fs := by
  obtain rfl := move_of_job? hj h
  obtain ⟨fs, hf⟩ := job?_eq_some_iff.mp hj
  refine ⟨fs, hf, ?_⟩
  cases h with
  | proceed k a fs' s hf' hs =>
    rw [hf] at hf'
    cases hf'
    obtain ⟨hm, hn, hjournal⟩ := (w.site?_eq_some_iff i s).mp hs
    -- The manager is put back as it was.
    have hsame : w.managers.set i (some s.manager) = w.managers := by
      obtain ⟨hi, hget⟩ := List.getElem?_eq_some_iff.mp ((w.manager?_eq_some_iff i _).mp hm)
      rw [← hget, List.set_getElem_self]
    have hnext : Agenda.next s (.events (⟨c, .accepted l⟩ :: es)) =
        (some (.events es), s.onAccepted c l, none) := rfl
    rw [proceed_eq, hnext, Site.late_onAccepted (hw.depth_eq_zero hf hs).2 c
      (mt (listening?_eq_some_iff hm l).mpr hl)]
    simp only [Option.elim, during, put, hsame, Moment.late, hn, hjournal]

lemma departed_late (hw : w.Orderly) {es : List SocketEvent} {fs : List (Frame κ)}
    (hf : w.frames = ⟨i, .events (⟨c, .accepted l⟩ :: es), none⟩ :: fs) :
    (w.late i c es fs).Departed c := by
  have htokens : w.tokens = c :: (w.late i c es fs).tokens := by
    simp only [tokens, arriving, late, hf, held, Network.awaiting_close]
    rfl
  -- There is one of each connection among the tokens, and this step took it off the agenda.
  have hone := hw.single c
  rw [htokens, List.count_cons_self] at hone
  have hgone : c ∉ (w.late i c es fs).tokens := List.count_eq_zero.mp (by omega)
  refine ⟨⟨?_, fun hmem => hgone (List.mem_append_left _ hmem)⟩,
    fun hmem => hgone (List.mem_append_right _ hmem)⟩
  have hnum := hw.fresh c (htokens ▸ List.mem_cons_self)
  exact Nat.lt_of_lt_of_eq hnum (w.network.nextId_close c).symm

lemma Departed.not_mem_backlog (hc : w.Departed c) (j : Nat) : c ∉ (w.backlog j).sockets := by
  intro hmem
  obtain ⟨m, hm, hheld⟩ := mem_held_of_mem_backlog hmem
  exact hc.2 (List.mem_flatMap.mpr
    ⟨some m, List.mem_of_getElem? ((w.manager?_eq_some_iff j m).mp hm), hheld⟩)

/-! ### Runs -/

variable {ports : PortSource} {mvs mvs' : List (Move κ)} {es es' : History κ} {x : Stride κ}

lemma listening_of_offer (hserves : Serves w i w' mv o) {cb : κ}
    (ho : o = .notice i (.offer cb)) : ∃ l, w.listening? i = some l := by
  cases hserves with
  | away mv o hm hm' hn hc => exact absurd ho (hn _)
  | born p hi hm => cases ho
  | gone m hm hm' => cases ho
  | serves mv o m m' hm hm' hs hr =>
    generalize m'.front = f' at hs
    cases hs with
    | idle mv o hclaim hshut huse hoffer => exact absurd ho (hoffer cb)
    | offered l p b hj hl =>
      exact ⟨l.socket, (listening?_eq_some_iff hm l.socket).mpr (congrArg (Option.map _) hl)⟩
    | _ => cases ho

/-- No listener of an earlier moment had the id of one that is opened now. -/
lemma fresh_listener (hr : (initial ports).run mvs = some (es, w)) (h : Step w mv o w')
    (hl : w'.listening? i = some l) (hnew : w.listening? i ≠ some l) :
    (∀ u, (initial ports).Reaches u → u.Reaches w → ∀ j, u.listening? j ≠ some l) ∧
      ∀ c, ⟨c, .accepted l⟩ ∉ reported ((initial ports).trace mvs) w.network := by
  obtain ⟨rfl, -⟩ := (h.listening ((Reaches.of_run hr).serves h i) hl).resolve_left hnew
  constructor
  · intro u hu huw j hj
    exact absurd (listening_lt hu hj) (Nat.not_lt.mpr (hu.nextId_le huw))
  · intro c hc
    obtain ⟨as, hn, hreported⟩ := reported_run hr
    rw [hreported] at hc
    have hlt := Network.accepted_lt as hc
    rw [← hn] at hlt
    exact Nat.lt_irrefl _ hlt

/-- What is on its way was not pending before. -/
lemma not_pending_of_arriving (hc : c ∈ w.arriving) {u : Moment κ} (hu : (initial ports).Reaches u)
    (huw : u.Reaches w) (j : Nat) : c ∉ (u.backlog j).sockets := by
  intro hmem
  have hlanded : w.Landed c := Landed.reaches hu (hu.orderly.of_mem_backlog hmem) huw
  exact hlanded.2 hc

/-- The records of claimed streams, the map of their sockets and their connections outlive the listener. -/
lemma claimed_outlive (hw : w.Orderly) (h : Step w (.call i .closeListener) o w') {m : Manager κ}
    (hm : w.manager? i = some m) (hshut : m.listener = none → m.backlog = []) :
    ∃ m', w'.manager? i = some m' ∧ m'.listener = none ∧ m'.backlog = [] ∧ m'.streams = m.streams ∧
      m'.sockets = m.sockets ∧ ∀ g r c, m.streams.get? g = some r → r.socket = some c →
        c ∉ m'.deferred ∧ w'.network.get? c = w.network.get? c := by
  cases h with
  | call _ _ s hact hs =>
    obtain ⟨hms, hn, -⟩ := (w.site?_eq_some_iff i s).mp hs
    obtain rfl := Option.some.inj (hm.symm.trans hms)
    obtain ⟨hl, hb, hstreams, hsockets, hdeferred⟩ := s.closeListener_keeps hshut
    refine ⟨_, (w.manager?_put (lt_of_manager? hm) _ i).trans (if_pos rfl), hl, hb, hstreams, hsockets,
      fun g r c hr hc => ?_⟩
    obtain ⟨hpending, hdefer⟩ :=
      hw.not_mem_deferred hm ((hw.coherent_site hs).mem_keys hr hc) hm
    constructor
    · intro hmem
      rcases List.mem_append.mp (hdeferred hmem) with hmem | hmem
      · exact hdefer hmem
      · exact hpending hmem
    · rw [hn]
      exact s.get?_closeListener hpending

lemma late_run {first rest : List (Stride κ)} (hr : (initial ports).run mvs = some (es, w))
    (htr : (initial ports).trace mvs = first ++ x :: rest)
    (he : x.before.event? i = some ⟨c, .accepted l⟩) (hl : x.before.listening? i ≠ some l) :
    (∀ j, x.after.manager? j = x.before.manager? j) ∧
      x.after.journal.metrics = x.before.journal.metrics ∧
      (∀ y ∈ (initial ports).trace mvs, ∀ j, c ∉ (y.after.backlog j).sockets) ∧
      (∀ y ∈ x :: rest, y.after.network.isOpen c = false) ∧
      (reported ((initial ports).trace mvs) w.network).count ⟨c, .closed⟩ = 1 := by
  obtain ⟨mvs₁, mvs₂, es₁, es₂, rfl, hr₁, rfl, hstep, hr₂, rfl⟩ := trace_split hr htr
  have hreach := Reaches.of_run hr₁
  have hw := hreach.orderly
  obtain ⟨events, hj⟩ := event?_eq_some_iff.mp he
  have harr := mem_arriving_of_job? hj
  obtain ⟨fs, hf, hafter⟩ := (step_cases hstep).late hw hj hl
  have hdep : x.after.Departed c := hafter ▸ departed_late hw hf
  have hreach' := hreach.trans (.step _ _ hstep)
  have hclosed : x.after.network.isOpen c = false := by
    rw [hafter, Moment.late, Network.isOpen_close]
    simp
  have htoken : c ∈ x.before.tokens := List.mem_append_left _ harr
  have hend := closed_once hr₁ htoken (run_single hstep) hclosed
  have hstays : ∀ u, x.after.Reaches u → u.network.isOpen c = false := fun u ⟨_, _, hu⟩ =>
    stays_closed (run_append hr₁ (run_single hstep)) (List.count_pos_iff.mp (by omega)) hu
  have hlater : ∀ y ∈ x :: x.after.trace mvs₂, x.after.Reaches y.after := by
    intro y hy
    rcases List.mem_cons.mp hy with rfl | hy
    · exact .refl _
    · obtain ⟨hy₁, hy₂, -⟩ := reaches_of_mem_trace hr₂ hy
      exact hy₁.trans hy₂
  refine ⟨fun j => ?_, ?_, fun y hy j => ?_, fun y hy => ?_, ?_⟩
  · rw [hafter]
    rfl
  · rw [hafter]
    rfl
  · -- Up to this step it was still to be handled; from here on it is departed.
    rw [htr] at hy
    rcases List.mem_append.mp hy with hy | hy
    · obtain ⟨hy₁, hy₂, hyx⟩ := reaches_of_mem_trace hr₁ hy
      exact not_pending_of_arriving harr (hy₁.trans hy₂) hyx j
    · exact (hdep.reaches hreach' (hlater y hy)).not_mem_backlog j
  · exact hstays y.after (hlater y hy)
  · have hrun : x.before.run (x.move :: mvs₂) = some ((x.move, x.outcome) :: es₂, w) :=
      run_append (run_single hstep) hr₂
    exact closed_once hr₁ htoken hrun (hstays w (.of_run hr₂))

/-- Listeners of a manager do not mix, in whatever order they are opened and closed and on whatever
ports. While there is none, nothing is pending or offered. Each has an id that was not there before. What
comes in for one that is not open any more is closed on the spot; it is pending at no time, and no
manager and no metric changes. Streams claimed before a listener is closed keep all they have. -/
theorem incarnations_apart (hr : (initial ports).run mvs = some (es, w)) (i : Nat) :
    let tr := (initial ports).trace mvs
    (w.listening? i = none → w.backlog i = []) ∧ ∀ first x rest, tr = first ++ x :: rest →
      ((∃ cb, x.outcome = .notice i (.offer cb)) → ∃ l, x.before.listening? i = some l) ∧
      (∀ l, x.before.listening? i ≠ some l → x.after.listening? i = some l →
        (∀ y ∈ first ++ [x], ∀ j, y.before.listening? j ≠ some l) ∧
          ∀ c, ⟨c, .accepted l⟩ ∉ reported first x.before.network) ∧
      (∀ c l, x.before.event? i = some ⟨c, .accepted l⟩ → x.before.listening? i ≠ some l →
        (∀ j, x.after.manager? j = x.before.manager? j) ∧
          x.after.journal.metrics = x.before.journal.metrics ∧
          (∀ y ∈ tr, ∀ j, c ∉ (y.after.backlog j).sockets) ∧
          (∀ y ∈ x :: rest, y.after.network.isOpen c = false) ∧
          (reported tr w.network).count ⟨c, .closed⟩ = 1) ∧
      (x.move = .call i .closeListener → ∀ m, x.before.manager? i = some m →
        ∃ m', x.after.manager? i = some m' ∧ m'.listener = none ∧ m'.backlog = [] ∧
          m'.streams = m.streams ∧ m'.sockets = m.sockets ∧
          ∀ h r c, m.streams.get? h = some r → r.socket = some c →
            c ∉ m'.deferred ∧ x.after.network.get? c = x.before.network.get? c) := by
  refine ⟨fun hl => ?_, fun first x rest htr => ?_⟩
  · cases hm : w.manager? i with
    | none => exact backlog_eq_nil hm
    | some m =>
      rw [listening?, hm, Option.bind_some, Option.map_eq_none_iff] at hl
      rw [backlog_eq hm]
      exact (audited_run hr i).shut m hm hl
  obtain ⟨mvs₁, mvs₂, es₁, es₂, -, hr₁, rfl, hstep, hr₂, -⟩ := trace_split hr htr
  have hreach := Reaches.of_run hr₁
  have hstep' := step_cases hstep
  refine ⟨?_, fun l hnew hl => ?_, fun c l he hl => late_run hr htr he hl, fun hmove m hm => ?_⟩
  · rintro ⟨cb, ho⟩
    exact listening_of_offer (hreach.serves hstep' i) ho
  · obtain ⟨hlisten, hreported⟩ := fresh_listener hr₁ hstep' hl hnew
    refine ⟨fun y hy => ?_, hreported⟩
    rcases List.mem_append.mp hy with hy | hy
    · obtain ⟨hbefore, hy₂, hyx⟩ := reaches_of_mem_trace hr₁ hy
      exact hlisten _ hbefore (hy₂.trans hyx)
    · obtain rfl := List.mem_singleton.mp hy
      exact hlisten _ hreach (.refl _)
  · rw [hmove] at hstep'
    exact claimed_outlive hreach.orderly hstep' hm ((audited_run hr₁ i).shut m hm)

/-- The callback that claims the first connection also closes the listener and opens another one on the
same port, while a second connection is on its way to the old one. -/
def reopening : List (Move Unit) :=
  [.create ⟨some 9000, 2, 2, 0, 0, 0, 64, 0⟩, .call 0 (.openListener ()), .network (.connect 9000),
    .begin 0, .proceed, .proceed, .proceed, .proceed, .call 0 .accept, .network (.connect 9000),
    .call 0 .closeListener, .call 0 (.openListener ()), .leave, .proceed, .begin 0, .proceed]

theorem incarnations_apart_reopening : ∃ es w first x,
    (initial .standard).run reopening = some (es, w) ∧
      (initial .standard).trace reopening = first ++ [x] ∧
      x.before.event? 0 = some ⟨⟨3⟩, .accepted ⟨1⟩⟩ ∧ x.before.listening? 0 = some ⟨4⟩ ∧
      x.before.network.listenerOn? 9000 = some ⟨4⟩ ∧ x.before.socket? 0 ⟨0, 1⟩ = some ⟨2⟩ ∧
      x.after.manager? 0 = x.before.manager? 0 ∧ x.after.network.isOpen ⟨3⟩ = false ∧
      (reported ((initial .standard).trace reopening) w.network).count ⟨⟨3⟩, .closed⟩ = 1 := by
  have hrun : ∃ es w x, (initial .standard).run reopening = some (es, w) ∧
      (initial .standard).trace reopening = ((initial .standard).trace reopening).take 15 ++ [x] ∧
      x.before.event? 0 = some ⟨⟨3⟩, .accepted ⟨1⟩⟩ ∧ x.before.listening? 0 = some ⟨4⟩ ∧
      x.before.network.listenerOn? 9000 = some ⟨4⟩ ∧ x.before.socket? 0 ⟨0, 1⟩ = some ⟨2⟩ :=
    ⟨_, _, _, rfl, rfl, rfl, rfl, rfl, rfl⟩
  obtain ⟨es, w, x, hr, htr, he, hl, hport, hsocket⟩ := hrun
  obtain ⟨-, hall⟩ := incarnations_apart hr 0
  obtain ⟨-, -, hlate, -⟩ := hall _ x [] htr
  have hother : x.before.listening? 0 ≠ some ⟨1⟩ := by simp [hl]
  obtain ⟨hman, -, -, hclosed, honce⟩ := hlate ⟨3⟩ ⟨1⟩ he hother
  exact ⟨es, w, _, x, hr, htr, he, hl, hport, hsocket, hman 0, hclosed x List.mem_cons_self, honce⟩

end Moment

end BoundedStreams
