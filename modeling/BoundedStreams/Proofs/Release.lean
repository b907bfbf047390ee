import BoundedStreams.Proofs.Incarnations
import BoundedStreams.Proofs.Leaks

/-! The end of a manager that nobody shared its network with. It leaves no listener behind, and no
connection but those whose arrival it was not told of. -/

namespace BoundedStreams

namespace Network

lemma Sheds.listeners {n n' : Network} (h : n.Sheds n') : n'.listeners = n.listeners := by
  obtain ⟨cs, rfl⟩ := h
  induction cs generalizing n with
  | nil => rfl
  | cons c cs ih =>
    rw [List.foldl_cons, ih, close]
    split <;> rfl

lemma listeners_perform (n : Network) {a : Action} (hb : ∀ p, a ≠ .bind p)
    (hc : ∀ s, a ≠ .closeListener s) : (n.perform a).2.listeners = n.listeners := by
  rcases (n.frame_perform a).2 with h | ⟨p, rfl⟩ | ⟨s, rfl⟩
  · exact h
  · exact absurd rfl (hb p)
  · exact absurd rfl (hc s)

lemma openCount_eq_zero {n : Network} (h : ∀ c, n.isOpen c = false) : n.openCount = 0 := by
  rw [openCount, Table.size_eq_length_keys, List.length_eq_zero_iff, List.eq_nil_iff_forall_not_mem]
  intro c hc
  rw [Table.mem_keys_iff] at hc
  exact Bool.false_ne_true ((h c).symm.trans hc)

end Network

namespace Site

variable {κ : Type} {s : Site κ}

/-! ### What a release gives up -/

/-- What holds of the connections of a manager that alone uses its network. -/
def Kept (s : Site κ) : Prop :=
  s.manager.Coherent ∧ Tidy s.network [] s.manager.held s.manager.owned

lemma Kept.did {s' : Site κ} {ds : List Deed} (hk : s.Kept) (h : Did ds s s')
    (hds : ∀ d ∈ ds, d.admitted = [] ∧ d.dropped = []) : s'.Kept := by
  obtain ⟨hm, ht⟩ := hk
  have hone : ∀ c, (ds.flatMap Deed.admitted).count c + s.manager.held.count c ≤ 1 := by
    intro c
    rw [List.flatMap_eq_nil_iff.mpr fun d hd => (hds d hd).1, List.count_nil, Nat.zero_add]
    exact hm.single c
  refine ⟨h.coherent hm hone, h.tidy hm hone (fun d hd => ?_) ht⟩
  rw [(hds d hd).1, (hds d hd).2]
  simp

lemma Kept.call (hk : s.Kept) (c : Call Handle κ) : (c.perform s).2.Kept := by
  obtain ⟨ds, hds, hall⟩ := s.did_call c
  exact hk.did hds fun d hd => Moment.call_allows_dropped (hall d hd)

lemma Kept.closes (hk : s.Kept) (hs : List Handle) : (hs.foldl close s).Kept := by
  induction hs generalizing s with
  | nil => exact hk
  | cons h hs ih => exact ih (hk.call (.close h))

lemma streams_close (s : Site κ) (h g : Handle) : (s.close h).manager.streams.get? g =
    if h = g then none else s.manager.streams.get? g := by
  cases hr : s.manager.streams.get? h with
  | none =>
    have hsame : (s.close h).manager = s.manager := by
      simp only [close, hr]
      rfl
    rw [hsame]
    split
    · next hg => rw [← hg, hr]
    · rfl
  | some r =>
    cases hc : r.socket with
    | none =>
      rw [manager_close_orphan hr hc]
      exact Arena.get?_remove _ h g
    | some c =>
      rw [manager_close_attached hr hc]
      exact Arena.get?_remove _ h g

lemma streams_closes (hs : List Handle) (s : Site κ) {g : Handle}
    (hg : g ∈ hs ∨ s.manager.streams.get? g = none) :
    (hs.foldl close s).manager.streams.get? g = none := by
  induction hs generalizing s with
  | nil => exact hg.resolve_left List.not_mem_nil
  | cons h hs ih =>
    apply ih
    rw [streams_close]
    by_cases hgh : h = g
    · exact .inr (if_pos hgh)
    · rw [if_neg hgh]
      exact hg.imp_left fun hmem => (List.mem_cons.mp hmem).resolve_left (Ne.symm hgh)

lemma backlog_closes (hs : List Handle) {s : Site κ} (hk : s.Kept) :
    (hs.foldl close s).manager.backlog = s.manager.backlog := by
  induction hs generalizing s with
  | nil => rfl
  | cons h hs ih => exact (ih (hk.call (.close h))).trans (confined_close hk.1 h).backlog

/-- After a release an open connection is one whose arrival is queued. -/
lemma tidy_release (hk : s.Kept) (hshut : s.manager.listener = none → s.manager.backlog = []) :
    Tidy s.release.network [] [] [] := by
  let t := s.closeListener.manager.streams.handles.foldl close s.closeListener
  have h₁ : s.closeListener.Kept := hk.call .closeListener
  have ht : t.Kept := h₁.closes _
  have hbacklog : t.manager.backlog = [] :=
    (backlog_closes _ h₁).trans (closeListener_keeps s hshut).2.1
  have hnone : ∀ g, t.manager.streams.get? g = none := by
    intro g
    refine streams_closes _ _ ?_
    cases hg : s.closeListener.manager.streams.get? g with
    | none => exact .inr rfl
    | some r => exact .inl (List.mem_map_of_mem ((Arena.mem_toList_iff _ g r).mpr hg))
  have hkeys : t.manager.sockets.keys = [] := by
    rw [List.eq_nil_iff_forall_not_mem]
    intro c hc
    obtain ⟨h, hh⟩ := Option.isSome_iff_exists.mp ((Table.mem_keys_iff _ c).mp hc)
    obtain ⟨r, hr, -⟩ := ht.1.record c h hh
    rw [hnone h] at hr
    cases hr
  have hflush : Does .flush t s.release := .flush ⟨rfl, rfl, rfl, rfl, rfl, rfl, rfl, .refl _⟩
  have hend : s.release.Kept := ht.did hflush.did (by simp [Deed.admitted, Deed.dropped])
  have hheld : s.release.manager.held = [] ∧ s.release.manager.owned = [] := by
    have hb : s.release.manager.backlog = t.manager.backlog := rfl
    have hs : s.release.manager.sockets = t.manager.sockets := rfl
    have hd : s.release.manager.deferred = [] := rfl
    rw [Manager.held, Manager.owned, hb, hs, hd, hbacklog, hkeys]
    exact ⟨rfl, rfl⟩
  have htidy := hend.2
  rwa [hheld.1, hheld.2] at htidy

/-- A release closes what the manager holds, and no more. -/
lemma isOpen_release (hk : s.Kept) (hshut : s.manager.listener = none → s.manager.backlog = [])
    (hapart : ∀ c ∈ awaiting s.network.queue, c ∉ s.manager.held) (c : SocketId) :
    s.release.network.isOpen c = true ↔
      s.network.isOpen c = true ∧ c ∈ awaiting s.network.queue := by
  obtain ⟨ds, hds, hquiet⟩ := s.did_release
  have hsame : awaiting s.release.network.queue = awaiting s.network.queue := hds.traffic.1
  constructor
  · intro hopen
    constructor
    · obtain ⟨cs, hcs⟩ := hds.closes
      rw [hcs.opened, Network.isOpen_foldl_close, Bool.and_eq_true] at hopen
      exact hopen.2
    · rcases (tidy_release hk hshut).found c hopen with hmem | hmem
      · exact hsame ▸ hmem
      · cases hmem
  · rintro ⟨hopen, hmem⟩
    rw [hds.isOpen_eq hk.1 (fun d hd => ⟨(hquiet d hd).1, (hquiet d hd).2 c⟩) (hapart c hmem)]
    exact hopen

/-! ### Listeners of the network -/

lemma listeners_read (s : Site κ) (h : Handle) (k : Nat) :
    (s.read h k).2.network.listeners = s.network.listeners := by
  rw [read]
  split
  · rfl
  · split
    · rfl
    · next c _ =>
      split
      · rfl
      · have hrecv := s.network.listeners_perform (a := .recv c k) (by simp) (by simp)
        dsimp only
        split
        · exact (Network.listeners_perform _ (a := .schedule c _) (by simp) (by simp)).trans hrecv
        · exact hrecv

lemma listeners_write (s : Site κ) (h : Handle) (bytes : Bytes) :
    (s.write h bytes).2.network.listeners = s.network.listeners := by
  rw [write]
  split
  · rfl
  · split
    · rfl
    · dsimp only
      split <;> rfl

lemma listeners_closeListener {l : SocketId} {p : Port}
    (hl : s.closeListener.network.listeners.get? l = some p) :
    s.network.listeners.get? l = some p ∧ ¬ s.manager.front.Listens l := by
  cases hopen : s.manager.listener with
  | none =>
    rw [closeListener_of_none hopen] at hl
    refine ⟨hl, fun hlisten => ?_⟩
    have hsome : s.manager.listener.map (·.socket) = some l := hlisten
    rw [hopen] at hsome
    cases hsome
  | some k =>
    rw [(sheds_closeListener hopen).listeners, Network.closeListener, Table.get?_erase] at hl
    split at hl
    · cases hl
    · next hne =>
      refine ⟨hl, fun hlisten => hne ?_⟩
      have hsome : s.manager.listener.map (·.socket) = some l := hlisten
      rw [hopen] at hsome
      exact Option.some.inj hsome

/-- A call brings no listener but the one that the manager opens. -/
lemma listeners_call (s : Site κ) (call : Call Handle κ) {l : SocketId} {p : Port}
    (hl : (call.perform s).2.network.listeners.get? l = some p) :
    s.network.listeners.get? l = some p ∨ (call.perform s).2.manager.front.Listens l := by
  cases call with
  | openListener cb =>
    obtain ⟨q, n, -, hn, -, hbind⟩ := s.network.bind_cases s.manager.port
    simp only [Call.perform, openListener] at hl ⊢
    by_cases hopen : s.manager.listener.isSome = true
    · rw [if_pos hopen] at hl
      exact .inl hl
    rw [if_neg hopen] at hl ⊢
    rcases hbind with hbind | ⟨-, hbind⟩
    · rw [hbind] at hl
      exact .inl (hn ▸ hl)
    · rw [hbind] at hl ⊢
      simp only [note, Table.get?_set] at hl
      split at hl
      · next he => exact .inr (congrArg some he)
      · exact .inl hl
  | closeListener => exact .inl (listeners_closeListener hl).1
  | accept => exact .inl (s.network_accept ▸ hl)
  | close h => exact .inl ((s.sheds_close h).listeners ▸ hl)
  | arm h want cb => exact .inl (s.network_arm h want cb ▸ hl)
  | read h k => exact .inl (s.listeners_read h k ▸ hl)
  | write h bytes => exact .inl (s.listeners_write h bytes ▸ hl)
  | port | closeOutput h | state h | stats => exact .inl hl

end Site

namespace Moment

variable {κ : Type} {w w' : Moment κ} {i : Nat} {c l : SocketId} {mv : Move κ} {o : Outcome κ}

lemma Step.listeners (h : Step w mv o w') (hb : ∀ p, mv ≠ .network (.bind p)) {p : Port}
    (hl : w'.network.listeners.get? l = some p) :
    w.network.listeners.get? l = some p ∨ ∃ i, w'.listening? i = some l := by
  have hsite : ∀ {i : Nat} {s s' : Site κ}, w.site? i = some s →
      s'.network.listeners = s.network.listeners → s'.network.listeners.get? l = some p →
      w.network.listeners.get? l = some p := by
    intro i s s' hs he hl
    rw [((w.site?_eq_some_iff i s).mp hs).2.1, ← he]
    exact hl
  cases h with
  | network a hact =>
    rcases (w.network.frame_perform a).2 with he | ⟨q, rfl⟩ | ⟨s, rfl⟩
    · exact .inl (he ▸ hl)
    · exact absurd rfl (hb q)
    · left
      simp only [Network.perform, Network.closeListener, Table.get?_erase] at hl
      split at hl
      · cases hl
      · exact hl
  | call i call s hact hs =>
    rcases s.listeners_call call hl with hold | hnew
    · exact .inl (hsite hs rfl hold)
    · obtain ⟨hm, -, -⟩ := (w.site?_eq_some_iff i s).mp hs
      have hm' := (w.manager?_put (lt_of_manager? hm) (call.perform s).2 i).trans (if_pos rfl)
      exact .inr ⟨i, (listening?_eq_some_iff hm' l).mpr hnew⟩
  | note n hact | create o hact => exact .inl hl
  | release i s hact hi hs =>
    have hl' : s.release.network.listeners.get? l = some p := hl
    rw [s.sheds_release.listeners] at hl'
    exact .inl (hsite hs rfl (Site.listeners_closeListener hl').1)
  | begin i s hact hi hs =>
    have hpoll : s.begin.2.network.listeners = s.network.listeners := rfl
    exact .inl (hsite hs hpoll hl)
  | proceed i a fs s hf hs => exact .inl ((sheds_proceed hs a fs).listeners ▸ hl)
  | leave i a n fs s hf hs => exact .inl (hsite hs s.sheds_leave.listeners hl)

lemma Serves.listening (h : Serves w i w' mv o) (hl : w.listening? i = some l) :
    w'.listening? i = some l ∨ unlistens i mv = true := by
  cases h with
  | away mv o hm =>
    rw [listening?_eq_none hm] at hl
    cases hl
  | born p hi hm =>
    rw [listening?_eq_none (manager?_of_le (Nat.le_of_eq hi))] at hl
    cases hl
  | gone m hm hm' => exact .inr (unlistens_eq_true_iff.mpr (.inr rfl))
  | serves mv o m m' hm hm' hs hr =>
    rw [listening?_eq_some_iff hm, Front.Listens] at hl
    rw [listening?_eq_some_iff hm', Front.Listens]
    rcases hs.listener with he | ⟨-, hno⟩ | ⟨hmv, -⟩
    · exact .inl (he ▸ hl)
    · rw [hno] at hl
      cases hl
    · exact .inr (unlistens_eq_true_iff.mpr (.inl hmv))

lemma Step.unlistens (h : Step w mv o w') (hmv : Moment.unlistens i mv = true)
    (hl : w.listening? i = some l) : w'.network.listeners.get? l = none := by
  have hsite : ∀ {s : Site κ}, w.site? i = some s → s.manager.front.Listens l := fun hs =>
    (listening?_eq_some_iff (manager?_of_site? hs) l).mp hl
  rw [Option.eq_none_iff_forall_ne_some]
  intro p hp
  rcases unlistens_eq_true_iff.mp hmv with rfl | rfl
  · cases h with
    | call _ _ s hact hs => exact (Site.listeners_closeListener hp).2 (hsite hs)
  · cases h with
    | release _ s hact hi hs =>
      have hp' : s.release.network.listeners.get? l = some p := hp
      rw [s.sheds_release.listeners] at hp'
      exact (Site.listeners_closeListener hp').2 (hsite hs)

/-- Where nobody else listens on the network, all its listeners are those of the managers. -/
lemma listeners_run {ports : PortSource} {mvs : List (Move κ)} {es : History κ}
    (hr : (initial ports).run mvs = some (es, w)) (hb : ∀ mv ∈ mvs, ∀ p, mv ≠ .network (.bind p))
    {p : Port} (hl : w.network.listeners.get? l = some p) : ∃ i, w.listening? i = some l := by
  rw [← trace_moves hr] at hb
  -- A manager gives its listener up only in a step that also takes it off the network.
  refine trace_invariant (P := fun tr w => (∀ mv ∈ tr.map (·.move), ∀ p, mv ≠ .network (.bind p)) →
    ∀ l p, w.network.listeners.get? l = some p → ∃ i, w.listening? i = some l) (fun _ l p hl => ?_)
    (fun past w mv o w' hreach hbound h hpast l p hl => ?_) hr hb l p hl
  · cases hl
  · rw [List.map_append, List.forall_mem_append] at hpast
    rcases h.listeners (hpast.2 mv List.mem_cons_self) hl with hold | hnew
    · obtain ⟨i, hi⟩ := hbound hpast.1 l p hold
      refine ⟨i, ((hreach.serves h i).listening hi).resolve_right fun hmv => ?_⟩
      rw [h.unlistens hmv hi] at hl
      cases hl
    · exact hnew

/-! ### Connections of a run -/

lemma mem_tokens_of_connect {p : Port}
    (h : Step w (.network (.connect p)) (.network (.socket (some c))) w') : c ∈ w'.tokens := by
  generalize ho : (Outcome.network (.socket (some c)) : Outcome κ) = o at h
  cases h with
  | network a hact =>
    rcases w.network.connect_eq p with he | ⟨l, he⟩
    · simp [Network.perform, he] at ho
    · simp only [Network.perform, he, Outcome.network.injEq, Network.Reply.socket.injEq,
        Option.some.injEq] at ho
      refine List.mem_append_left _ (List.mem_append_right _ ((mem_awaiting_iff _ c).mpr ⟨l, ?_⟩))
      simp [Network.perform, he, ho]

/-- The end of a connection is reported once if it is closed, and not if it is open. -/
lemma count_closed {ports : PortSource} {mvs : List (Move κ)} {es : History κ}
    (hr : (initial ports).run mvs = some (es, w)) {x : Stride κ} (hx : x ∈ (initial ports).trace mvs)
    {p : Port} (hmove : x.move = .network (.connect p))
    (ho : x.outcome = .network (.socket (some c))) :
    (reported ((initial ports).trace mvs) w.network).count ⟨c, .closed⟩ =
      if w.network.isOpen c then 0 else 1 := by
  obtain ⟨first, rest, htr⟩ := List.append_of_mem hx
  obtain ⟨mvs₁, mvs₂, es₁, es₂, rfl, hr₁, -, hstep, hr₂, -⟩ := trace_split hr htr
  split
  · next hopen =>
    rw [List.count_eq_zero]
    intro hmem
    rw [(recorded_run hr).1.tidy.ended c hmem] at hopen
    cases hopen
  · next hclosed =>
    have hstep' := step_cases hstep
    rw [hmove, ho] at hstep'
    have hrun := run_append hr₁ (run_single hstep)
    have hone := closed_once hrun (mem_tokens_of_connect hstep') hr₂ (by simpa using hclosed)
    rwa [List.append_assoc] at hone

lemma step_release {m : Manager κ} (hm : w.managers = [some m]) (hf : w.frames = []) :
    w.step (.release 0) = some (.done, w.release 0 ⟨w.network, m, w.journal⟩) := by
  simp [step, mayAct, inTurn, hf, site?, manager?, hm]

/-- After the release of a manager that nobody shared its network with, nothing listens there. Open are
just the connections that were open and whose arrival was queued still, so if there was none, nothing
is. Every other connection that was ever made is closed, and its end was reported once. -/
theorem release_spares_arrivals {ports : PortSource} {mvs : List (Move κ)} {es : History κ}
    {m : Manager κ} (hr : (initial ports).run mvs = some (es, w))
    (hsole : ∀ mv ∈ mvs, mv ≠ .network .poll ∧ ∀ p, mv ≠ .network (.bind p))
    (hm : w.managers = [some m]) (hf : w.frames = []) :
    ∃ w', w.step (.release 0) = some (.done, w') ∧
      (∀ p, w'.network.isListening p = false) ∧
      (∀ c, w'.network.isOpen c = true ↔
        w.network.isOpen c = true ∧ ∃ l, ⟨c, .accepted l⟩ ∈ w.network.queue) ∧
      ((∀ c l, ⟨c, .accepted l⟩ ∈ w.network.queue → w.network.isOpen c = false) →
        w'.network.openCount = 0) ∧
      ∀ x ∈ (initial ports).trace mvs, ∀ p c, x.move = .network (.connect p) →
        x.outcome = .network (.socket (some c)) →
          (reported ((initial ports).trace (mvs ++ [.release 0])) w'.network).count ⟨c, .closed⟩ =
            if w'.network.isOpen c then 0 else 1 := by
  have hw := orderly_run hr
  let s : Site κ := ⟨w.network, m, w.journal⟩
  have hman : w.manager? 0 = some m := by simp [manager?, hm]
  have hs : w.site? 0 = some s := (w.site?_eq_some_iff 0 s).mpr ⟨hman, rfl, rfl⟩
  have hstep := step_release hm hf
  have hr' := run_append hr (run_single hstep)
  -- No frame and no other manager could keep a connection alive: whatever is open is held here or on
  -- its way.
  have hkept : s.Kept := by
    refine ⟨hw.coherent_site hs, ?_⟩
    exact (InCustody.of_site (s := s) hm rfl (by simp [hf])).mp
      (custody_run hr (fun mv hmv => (hsole mv hmv).1) (.inr ⟨m, hm⟩))
  have hopen := Site.isOpen_release hkept ((audited_run hr 0).shut m hman) fun c hc hheld =>
    (hw.not_mem_of_mem_held hman hheld).1 (List.mem_append_right _ hc)
  simp only [mem_awaiting_iff] at hopen
  refine ⟨_, hstep, fun p => ?_, hopen, fun hnone => ?_, fun x hx p c hmove ho => ?_⟩
  · obtain ⟨as, hn, -⟩ := actions_run hr'
    rw [Bool.eq_false_iff]
    intro hlisten
    obtain ⟨l, hl⟩ := Option.isSome_iff_exists.mp hlisten
    rw [hn, (Network.apart_after as).listenerOn?_eq_some_iff, ← hn] at hl
    have hall : ∀ mv ∈ mvs ++ [.release 0], ∀ p, mv ≠ .network (.bind p) := by
      rw [List.forall_mem_append, List.forall_mem_singleton]
      exact ⟨fun mv hmv => (hsole mv hmv).2, by simp⟩
    obtain ⟨i, hi⟩ := listeners_run hr' hall hl
    have hgone : (w.release 0 s).manager? i = none := by
      rw [manager?_release hs]
      split
      · rfl
      · next hne => exact manager?_of_le (by simp [hm]; omega)
    rw [listening?, hgone] at hi
    cases hi
  · refine Network.openCount_eq_zero fun c => Bool.eq_false_iff.mpr fun hc => ?_
    obtain ⟨hwas, l, hl⟩ := (hopen c).mp hc
    rw [hnone c l hl] at hwas
    cases hwas
  · have hx' : x ∈ (initial ports).trace (mvs ++ [.release 0]) := by
      rw [trace_append hr]
      exact List.mem_append_left _ hx
    exact count_closed hr' hx' hmove ho

/-- A peer connects, and its manager is released before it took a turn. -/
theorem release_leaves_arrival : ∃ es w m w', (initial .standard).run arrival = some (es, w) ∧
    w.managers = [some m] ∧ w.frames = [] ∧ w.step (.release 0) = some (.done, w') ∧
    w'.network.isListening 9000 = false ∧ w'.network.isOpen ⟨2⟩ = true ∧ w'.network.openCount = 1 :=
  ⟨_, _, _, _, rfl, rfl, rfl, rfl, rfl, rfl, rfl⟩

/-- One connection is claimed, one pending and one on its way. -/
def farewell : List (Move Unit) := parting.take 14 ++ [.network (.connect 9000)]

theorem release_spares_arrivals_farewell : ∃ es w m w',
    (initial .standard).run farewell = some (es, w) ∧ w.managers = [some m] ∧
      m.sockets.keys = [⟨2⟩] ∧ m.backlog.sockets = [⟨3⟩] ∧
      w.step (.release 0) = some (.done, w') ∧ w'.network.isListening 9000 = false ∧
      w'.network.isOpen ⟨2⟩ = false ∧ w'.network.isOpen ⟨3⟩ = false ∧
      w'.network.isOpen ⟨4⟩ = true ∧
      (reported ((initial .standard).trace (farewell ++ [.release 0])) w'.network).count
        ⟨⟨3⟩, .closed⟩ = 1 := by
  have hrun : ∃ es w m, (initial .standard).run farewell = some (es, w) ∧ w.managers = [some m] ∧
      w.frames = [] ∧ m.sockets.keys = [⟨2⟩] ∧ m.backlog.sockets = [⟨3⟩] ∧
      w.network.isOpen ⟨4⟩ = true ∧ w.network.queue = [⟨⟨4⟩, .accepted ⟨1⟩⟩] ∧
      ∃ x ∈ (initial .standard).trace farewell, x.move = .network (.connect 9000) ∧
        x.outcome = .network (.socket (some ⟨3⟩)) := by
    refine ⟨_, _, _, rfl, rfl, rfl, rfl, rfl, rfl, rfl, _,
      List.mem_of_getElem? (i := 3) rfl, rfl, rfl⟩
  obtain ⟨es, w, m, hr, hm, hf, hkeys, hpending, ho, hq, x, hx, hmove, hx'⟩ := hrun
  obtain ⟨w', hstep, hlisten, hopen, -, honce⟩ :=
    release_spares_arrivals hr (by simp [farewell, parting]) hm hf
  have hclosed : ∀ c, c ≠ ⟨4⟩ → w'.network.isOpen c = false := by
    intro c hc
    rw [Bool.eq_false_iff]
    intro hopen'
    obtain ⟨-, l, hl⟩ := (hopen c).mp hopen'
    rw [hq, List.mem_singleton] at hl
    exact hc (congrArg SocketEvent.socket hl)
  have h₃ := hclosed ⟨3⟩ (by decide)
  have honce' := honce x hx 9000 ⟨3⟩ hmove hx'
  rw [h₃] at honce'
  refine ⟨es, w, m, w', hr, hm, hkeys, hpending, hstep, hlisten 9000, hclosed ⟨2⟩ (by decide), h₃,
    (hopen ⟨4⟩).mpr ⟨ho, ⟨1⟩, ?_⟩, honce'⟩
  rw [hq]
  exact List.mem_singleton_self _

end Moment

end BoundedStreams
