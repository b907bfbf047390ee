import BoundedStreams.Proofs.Custody
import BoundedStreams.Proofs.Levels
import BoundedStreams.Proofs.Trace

/-! What a callback gives up is closed when the callback returns, and is reported closed once. -/

namespace BoundedStreams

/-- The events that a stride takes from the network. -/
def Stride.polled {κ : Type} (x : Stride κ) : List SocketEvent :=
  match x.move with
  | .begin _ | .network .poll => x.before.network.poll.1
  | _ => []

/-- The events that were ever reported, and those that still wait in the queue. -/
def reported {κ : Type} (tr : List (Stride κ)) (n : Network) : List SocketEvent :=
  tr.flatMap Stride.polled ++ n.queue

/-! ### The events of a whole run -/

/-- No connection ends twice in what happened up to now. -/
structure Chronicle (n : Network) (past : List SocketEvent) : Prop where
  tidy : Tidy n past [] []
  once : ∀ c, (past ++ n.queue).count ⟨c, .closed⟩ ≤ 1

namespace Chronicle

variable {n n' : Network} {past : List SocketEvent}

lemma of_sameTraffic (h : Chronicle n past) (ht : n.SameTraffic n') : Chronicle n' past := by
  refine ⟨h.tidy.of_sameTraffic ht, ?_⟩
  rw [ht.queue]
  exact h.once

lemma close (h : Chronicle n past) (c : SocketId) : Chronicle (n.close c) past := by
  refine ⟨h.tidy.close c, fun d => ?_⟩
  have hd := h.once d
  rw [Network.queue_close, ← List.append_assoc, List.count_append]
  split
  · next hopen =>
    by_cases hcd : c = d
    -- The end of an open connection was not reported before.
    · subst hcd
      have hnot : ⟨c, .closed⟩ ∉ past ++ n.queue := by
        intro hmem
        rw [h.tidy.ended c hmem] at hopen
        cases hopen
      rw [List.count_eq_zero.mpr hnot]
      simp
    · have hzero : [(⟨c, .closed⟩ : SocketEvent)].count ⟨d, .closed⟩ = 0 := by
        simp [List.count_eq_zero, Ne.symm hcd]
      omega
  · exact hd

lemma foldl_close (h : Chronicle n past) (cs : List SocketId) :
    Chronicle (cs.foldl Network.close n) past := by
  induction cs generalizing n with
  | nil => exact h
  | cons c cs ih => exact ih (h.close c)

lemma perform (h : Chronicle n past) {a : Network.Action} (ha : a ≠ .poll) :
    Chronicle (n.perform a).2 past := by
  have htidy := h.tidy.perform ha
  have hs := n.shift_perform a
  generalize (n.perform a).2 = n' at htidy hs
  cases hs with
  | quiet ht => exact h.of_sameTraffic ht
  | close c => exact h.close c
  | poll => exact absurd rfl ha
  | connect p l =>
    refine ⟨htidy, fun c => ?_⟩
    have hc := h.once c
    have hzero : [(⟨⟨n.nextId⟩, .accepted l⟩ : SocketEvent)].count ⟨c, .closed⟩ = 0 := by
      simp
    rw [← List.append_assoc, List.count_append]
    omega
  | @peerSend s bs n₁ ht =>
    refine ⟨htidy, fun c => ?_⟩
    have hc := h.once c
    have hzero : [(⟨s, .received⟩ : SocketEvent)].count ⟨c, .closed⟩ = 0 := by
      simp
    rw [Network.enqueue, ht.queue, ← List.append_assoc, List.count_append]
    omega

lemma poll (h : Chronicle n past) : Chronicle n.poll.2 (past ++ n.poll.1) := by
  obtain ⟨ticks, heq, ht⟩ := n.poll_eq
  have hassoc : past ++ n.poll.1 = (past ++ n.queue) ++ ticks := by rw [heq, List.append_assoc]
  -- With the past in the queue nothing has been polled yet, and the batch is all that was ever reported.
  let n₁ : Network := { n with queue := past ++ n.queue }
  have hf : Followed n₁ ((past ++ n.queue) ++ []) :=
    h.tidy.followed.append trivial fun c hc => .inl hc
  rw [List.append_nil] at hf
  have h₁ : Tidy n₁ [] [] [] := ⟨h.tidy.found, h.tidy.backed, h.tidy.ended, hf, h.tidy.known⟩
  have hpoll : n₁.poll.1 = past ++ n.poll.1 := List.append_assoc _ _ _
  have htidy := h₁.poll
  rw [hpoll] at htidy
  refine ⟨htidy, fun c => ?_⟩
  have hnone : ticks.count ⟨c, .closed⟩ = 0 := List.count_eq_zero.mpr fun hc => (ht _ hc).2 rfl
  have hqueue : n.poll.2.queue = [] := rfl
  rw [hqueue, List.append_nil, hassoc, List.count_append, hnone]
  exact h.once c

end Chronicle

namespace Network

lemma SameTraffic.foldl_close {n n' : Network} (h : n.SameTraffic n') (cs : List SocketId) :
    (cs.foldl Network.close n).SameTraffic (cs.foldl Network.close n') := by
  induction cs generalizing n n' with
  | nil => exact h
  | cons c cs ih => exact ih (h.close c)

lemma queue_subset_foldl_close (cs : List SocketId) (n : Network) :
    n.queue ⊆ (cs.foldl close n).queue := by
  induction cs generalizing n with
  | nil => exact List.Subset.refl _
  | cons c cs ih =>
    intro e he
    apply ih (n.close c)
    rw [queue_close]
    exact List.mem_append_left _ he

lemma isOpen_perform {n : Network} {a : Action} {c : SocketId} (hp : a ≠ .peerClose c)
    (ha : a ≠ .abort c) (h : n.isOpen c = true) : (n.perform a).2.isOpen c = true := by
  have hkeep : ∀ {n' : Network}, n.SameTraffic n' → n'.isOpen c = true :=
    fun ht => (ht.opened c).trans h
  have hclose : ∀ d, d ≠ c → (n.close d).isOpen c = true := by
    intro d hd
    rw [isOpen_close]
    simp [hd, h]
  cases a with
  | peerClose d =>
    apply hclose
    rintro rfl
    exact hp rfl
  | abort d =>
    apply hclose
    rintro rfl
    exact ha rfl
  | connect p =>
    simp only [perform]
    rcases n.connect_eq p with he | ⟨l, he⟩
    · rw [he]
      exact h
    · rw [he, isOpen, Table.contains, Table.get?_set]
      split
      · rfl
      · exact h
  | peerSend s bs =>
    simp only [perform]
    rcases n.peerSend_eq s bs with he | ⟨n', ht, he⟩
    · rw [he]
      exact h
    · rw [he]
      exact (ht.opened c).trans h
  | poll => exact (n.isOpen_poll c).trans h
  | advance d => exact hkeep (n.sameTraffic_advance d)
  | peerTake s => exact hkeep (n.sameTraffic_peerTake s)
  | stall s on => exact hkeep (n.sameTraffic_update s _)
  | timer s | socket s | listening p | openCount | now => exact h
  | bind p => exact hkeep (n.sameTraffic_bind p)
  | closeListener s => exact hkeep (n.sameTraffic_closeListener s)
  | send s bs => exact hkeep (n.sameTraffic_update s _)
  | schedule s d => exact hkeep (n.sameTraffic_schedule s d)
  | recv s k => exact hkeep (n.sameTraffic_recv s k)

lemma queue_subset_perform (n : Network) {a : Action} (ha : a ≠ .poll) :
    n.queue ⊆ (n.perform a).2.queue := by
  have hs := n.shift_perform a
  generalize (n.perform a).2 = n' at hs
  intro e he
  cases hs with
  | quiet ht => exact ht.queue.symm ▸ he
  | connect p l => exact List.mem_append_left _ he
  | peerSend s bs ht => exact List.mem_append_left _ (ht.queue.symm ▸ he)
  | close c => exact queue_subset_foldl_close [c] n he
  | poll => exact absurd rfl ha

end Network

namespace Site

variable {κ : Type}

lemma Did.closes {ds : List Deed} {s s' : Site κ} (h : Did ds s s') :
    ∃ cs : List SocketId, (cs.foldl Network.close s.network).SameTraffic s'.network := by
  induction h with
  | nil s => exact ⟨[], .refl _⟩
  | @cons d ds s s₁ s' hd _ ih =>
    obtain ⟨cs, hcs⟩ := ih
    refine ⟨d.cut s.manager ++ cs, ?_⟩
    rw [List.foldl_append]
    exact (hd.sameTraffic.foldl_close cs).trans hcs

end Site

namespace Moment

variable {κ : Type}

/-- A step closes connections, is an action of the network, or takes the queue. -/
lemma Step.traffic {w w' : Moment κ} {mv : Move κ} {o : Outcome κ} (hw : w.Orderly)
    (h : Step w mv o w') :
    (Stride.polled ⟨w, mv, o, w'⟩ = [] ∧
      ((∃ cs : List SocketId, (cs.foldl Network.close w.network).SameTraffic w'.network) ∨
        ∃ a, a ≠ .poll ∧ w'.network = (w.network.perform a).2)) ∨
    Stride.polled ⟨w, mv, o, w'⟩ = w.network.poll.1 ∧ w'.network = w.network.poll.2 := by
  have hwork : ∀ {i : Nat} {s s' : Site κ} {ds : List Deed}, w.site? i = some s → Site.Did ds s s' →
      ∃ cs : List SocketId, (cs.foldl Network.close w.network).SameTraffic s'.network := by
    intro i s s' ds hs hds
    rw [((w.site?_eq_some_iff i s).mp hs).2.1]
    exact hds.closes
  cases h with
  | network a hact =>
    by_cases ha : a = .poll
    · subst ha
      exact .inr ⟨rfl, rfl⟩
    · refine .inl ⟨?_, .inr ⟨a, ha, rfl⟩⟩
      cases a <;> first | rfl | exact absurd rfl ha
  | call i c s hact hs =>
    obtain ⟨ds, hds, -⟩ := s.did_call c
    exact .inl ⟨rfl, .inl (hwork hs hds)⟩
  | note n hact => exact .inl ⟨rfl, .inl ⟨[], .refl _⟩⟩
  | create p hact => exact .inl ⟨rfl, .inl ⟨[], .refl _⟩⟩
  | release i s hact hi hs =>
    obtain ⟨ds, hds, -⟩ := s.did_release
    exact .inl ⟨rfl, .inl (hwork hs hds)⟩
  | begin i s hact hi hs =>
    obtain ⟨-, hn, -⟩ := (w.site?_eq_some_iff i s).mp hs
    exact .inr ⟨rfl, by rw [hn]; rfl⟩
  | proceed i a fs s hf hs =>
    obtain ⟨s', ds, fs', hwk, he⟩ := work_proceed hw hf hs
    refine .inl ⟨rfl, .inl ?_⟩
    rw [he]
    exact hwork hs hwk.did
  | leave i a n fs s hf hs =>
    exact .inl ⟨rfl, .inl (hwork hs (Site.Does.did (.leave (.refl s.leave))))⟩

lemma Step.chronicle {w w' : Moment κ} {mv : Move κ} {o : Outcome κ} (hw : w.Orderly)
    (h : Step w mv o w') {past : List SocketEvent} (hc : Chronicle w.network past) :
    Chronicle w'.network (past ++ Stride.polled ⟨w, mv, o, w'⟩) := by
  rcases h.traffic hw with ⟨hp, ⟨cs, ht⟩ | ⟨a, ha, hn⟩⟩ | ⟨hp, hn⟩
  · rw [hp, List.append_nil]
    exact (hc.foldl_close cs).of_sameTraffic ht
  · rw [hp, List.append_nil, hn]
    exact hc.perform ha
  · rw [hp, hn]
    exact hc.poll

lemma Step.queue_subset {w w' : Moment κ} {mv : Move κ} {o : Outcome κ} (hw : w.Orderly)
    (h : Step w mv o w') :
    w.network.queue ⊆ Stride.polled ⟨w, mv, o, w'⟩ ++ w'.network.queue := by
  intro e he
  rw [List.mem_append]
  rcases h.traffic hw with ⟨-, ⟨cs, ht⟩ | ⟨a, ha, hn⟩⟩ | ⟨hp, -⟩
  · right
    rw [ht.queue]
    exact Network.queue_subset_foldl_close cs _ he
  · right
    rw [hn]
    exact Network.queue_subset_perform _ ha he
  · left
    rw [hp]
    exact List.mem_append_left _ he

lemma Step.reported_subset {w w' : Moment κ} {mv : Move κ} {o : Outcome κ} (hw : w.Orderly)
    (h : Step w mv o w') (past : List (Stride κ)) :
    reported past w.network ⊆ reported (past ++ [⟨w, mv, o, w'⟩]) w'.network := by
  intro e he
  rw [reported, List.flatMap_append, List.append_assoc, List.mem_append]
  rcases List.mem_append.mp he with hpast | hqueue
  · exact .inl hpast
  · right
    simpa using h.queue_subset hw hqueue

lemma awaiting_subset {es fs : List SocketEvent} (h : es ⊆ fs) : awaiting es ⊆ awaiting fs := by
  intro c hc
  obtain ⟨l, hl⟩ := (mem_awaiting_iff es c).mp hc
  exact (mem_awaiting_iff fs c).mpr ⟨l, h hl⟩

/-- Of a connection that is on its way or held, the arrival was reported or is queued. -/
lemma recorded_run {ports : PortSource} {mvs : List (Move κ)} {es : History κ} {w : Moment κ}
    (hr : (initial ports).run mvs = some (es, w)) :
    Chronicle w.network (((initial ports).trace mvs).flatMap Stride.polled) ∧
      ∀ c ∈ w.tokens, c ∈ awaiting (reported ((initial ports).trace mvs) w.network) := by
  refine trace_invariant (P := fun tr w => Chronicle w.network (tr.flatMap Stride.polled) ∧
    ∀ c ∈ w.tokens, c ∈ awaiting (reported tr w.network)) ⟨⟨?_, ?_⟩, ?_⟩ ?_ hr
  · refine ⟨?_, ?_, ?_, trivial, ?_⟩ <;> simp [initial, Network.initial, Network.isOpen,
      Table.contains]
  · simp [initial, Network.initial]
  · simp [tokens, arriving, held, initial, awaiting, Network.initial]
  · rintro past w₁ mv o w₂ hreach ⟨hc, htokens⟩ hstep
    have hw := hreach.orderly
    refine ⟨?_, fun c hmem => ?_⟩
    · rw [List.flatMap_append]
      simpa using hstep.chronicle hw hc
    · have hst := hstep.stage hw
      have hold : c ∈ w₁.tokens → c ∈ awaiting (reported (past ++ [⟨w₁, mv, o, w₂⟩]) w₂.network) :=
        fun hmem => awaiting_subset (hstep.reported_subset hw past) (htokens c hmem)
      rcases List.mem_append.mp hmem with harr | hheld
      · rcases hst.mem_arriving harr with harr | ⟨-, hnew⟩
        · exact hold (List.mem_append_left _ harr)
        · rw [reported, awaiting_append]
          exact List.mem_append_right _ hnew
      · rcases hst.mem_held hw hheld with hheld | harr
        · exact hold (List.mem_append_right _ hheld)
        · exact hold (List.mem_append_left _ harr)

lemma reported_mono {ports : PortSource} {mvs mvs' : List (Move κ)} {es es' : History κ}
    {w w' : Moment κ} (hr : (initial ports).run mvs = some (es, w))
    (hr' : w.run mvs' = some (es', w')) :
    reported ((initial ports).trace mvs) w.network ⊆
      reported ((initial ports).trace (mvs ++ mvs')) w'.network := by
  rw [trace_append hr]
  refine trace_invariant (P := fun tr w' => reported ((initial ports).trace mvs) w.network ⊆
    reported ((initial ports).trace mvs ++ tr) w'.network) ?_
      (fun past w₁ mv o w₂ hreach hsub hstep => ?_) hr'
  · rw [List.append_nil]
    exact List.Subset.refl _
  · have hall := hstep.reported_subset ((Reaches.of_run hr).trans hreach).orderly
      ((initial ports).trace mvs ++ past)
    rw [List.append_assoc] at hall
    exact List.Subset.trans hsub hall

/-- Of a connection that was known once and is closed now, the end is reported once. -/
lemma closed_once {ports : PortSource} {mvs mvs' : List (Move κ)} {es es' : History κ}
    {w w' : Moment κ} (hr : (initial ports).run mvs = some (es, w)) {c : SocketId} (hc : c ∈ w.tokens)
    (hr' : w.run mvs' = some (es', w')) (hclosed : w'.network.isOpen c = false) :
    (reported ((initial ports).trace (mvs ++ mvs')) w'.network).count ⟨c, .closed⟩ = 1 := by
  have hwait := awaiting_subset (reported_mono hr hr') ((recorded_run hr).2 c hc)
  obtain ⟨hc', -⟩ := recorded_run (run_append hr hr')
  apply Nat.le_antisymm (hc'.once c)
  rcases hc'.tidy.followed.of_awaiting hwait with hopen | hend
  · rw [hclosed] at hopen
    cases hopen
  · exact List.count_pos_iff.mpr hend

lemma stays_closed {ports : PortSource} {mvs mvs' : List (Move κ)} {es es' : History κ}
    {w w' : Moment κ} (hr : (initial ports).run mvs = some (es, w)) {c : SocketId}
    (hc : ⟨c, .closed⟩ ∈ reported ((initial ports).trace mvs) w.network)
    (hr' : w.run mvs' = some (es', w')) : w'.network.isOpen c = false :=
  (recorded_run (run_append hr hr')).1.tidy.ended c (reported_mono hr hr' hc)

end Moment

/-! ### Calls inside a callback -/

namespace Site

variable {κ : Type}

lemma Does.mem_cut {d : Deed} {s s' : Site κ} (h : Does d s s') (hm : s.manager.Coherent)
    {c : SocketId} (hc : c ∈ d.cut s.manager) : c ∈ s.manager.held ∨ d = .refuse c := by
  cases h with
  | keep h | tend k f hf h | enqueue c' hd ha h | withdraw c' hc' h | claim k a p b hb hc' hi h
  | dismiss k r hr hc' h | enter h => cases hc
  | shed p b hb h =>
    left
    rw [Deed.cut] at hc
    split at hc
    · rw [List.mem_singleton.mp hc]
      simp [Manager.held, hb, Backlog.sockets]
    · cases hc
  | refuse c' hd h => exact .inr (congrArg _ (List.mem_singleton.mp hc).symm)
  | close k r c' hr hc' h =>
    left
    rw [Deed.cut] at hc
    split at hc
    · rw [List.mem_singleton.mp hc]
      simp [Manager.held, hm.mem_keys hr hc']
    · cases hc
  | orphan k r c' ab hd hr hc' hi h | free k r c' ab hd hr hc' hi h =>
    left
    rw [Deed.cut] at hc
    split at hc
    · rw [List.mem_singleton.mp hc]
      simp [Manager.held, hm.mem_keys hr hc']
    · cases hc
  | leave h =>
    left
    rw [Deed.cut] at hc
    split at hc
    · simp [Manager.held, hc]
    · cases hc
  | flush h => exact .inl (by simp [Manager.held, show c ∈ s.manager.deferred from hc])

lemma Did.isOpen_eq {ds : List Deed} {s s' : Site κ} (h : Did ds s s') (hm : s.manager.Coherent)
    {c : SocketId} (hds : ∀ d ∈ ds, d.admitted = [] ∧ d ≠ .refuse c) (hc : c ∉ s.manager.held) :
    s'.network.isOpen c = s.network.isOpen c := by
  have hnone : ds.flatMap Deed.admitted = [] := List.flatMap_eq_nil_iff.mpr fun d hd => (hds d hd).1
  refine (h.invariant (P := fun t => c ∉ t.manager.held ∧ t.network.isOpen c = s.network.isOpen c)
    hm (fun d => ?_) ⟨hc, rfl⟩ fun d hd t t' hdoes hmt ⟨hct, hopen⟩ => ⟨?_, ?_⟩).2.2
  · rw [hnone]
    simpa using hm.single d
  · intro hmem
    have hle := hdoes.count_held_le hmt c
    rw [(hds d hd).1, List.count_eq_zero.mpr hct] at hle
    have hpos := List.count_pos_iff.mpr hmem
    simp at hle
    omega
  · rw [hdoes.sameTraffic.opened, Network.isOpen_foldl_close, hopen]
    have hcut : c ∉ d.cut t.manager := by
      intro hmem
      rcases hdoes.mem_cut hmt hmem with hheld | hrefuse
      · exact hct hheld
      · exact (hds d hd).2 hrefuse
    simp [hcut]

lemma Does.deferred_subset {d : Deed} {s s' : Site κ} (h : Does d s s') (hl : d ≠ .leave)
    (hf : d ≠ .flush) : s.manager.deferred ⊆ s'.manager.deferred := by
  have habort : ∀ (t : Site κ) (c : SocketId), t.manager.deferred = s.manager.deferred →
      s.manager.deferred ⊆ (t.abort c).manager.deferred := by
    intro t c ht
    rw [abort, ← ht]
    split
    · exact List.Subset.refl _
    · exact List.subset_append_left _ _
  cases h with
  | keep h | tend k f hf' h | enqueue c hd ha h | withdraw c hc h | refuse c hd h
  | claim k a p b hb hc hi h | dismiss k r hr hc h | orphan k r c ab hd hr hc hi h
  | free k r c ab hd hr hc hi h | enter h =>
    rw [h.deferred]
    exact List.Subset.refl _
  | shed p b hb h =>
    rw [h.deferred]
    exact habort _ _ rfl
  | close k r c hr hc h =>
    rw [h.deferred]
    exact habort _ _ rfl
  | leave h => exact absurd rfl hl
  | flush h => exact absurd rfl hf

lemma call_allows_inside {s : Site κ} {call : Call Handle κ} {d : Deed} (h : call.Allows s d) :
    d.admitted = [] ∧ (∀ c, d ≠ .refuse c) ∧ (∀ m : Manager κ, m.depth ≠ 0 → d.cut m = []) ∧
      d ≠ .enter ∧ d ≠ .leave ∧ d ≠ .flush := by
  cases d with
  | keep | tend k | claim k c | dismiss k => exact ⟨rfl, nofun, fun _ _ => rfl, nofun, nofun, nofun⟩
  | shed c | close k c => exact ⟨rfl, nofun, fun m hm => if_neg hm, nofun, nofun, nofun⟩
  | enqueue | withdraw | refuse | orphan | free | enter | leave | flush =>
    cases call <;> simp [Call.Allows] at h

/-- Inside a callback a call closes no connection; what was given up stays so. -/
lemma inside_call {s : Site κ} (hd : s.manager.depth ≠ 0) (call : Call Handle κ) :
    s.network.SameTraffic (call.perform s).2.network ∧
      s.manager.deferred ⊆ (call.perform s).2.manager.deferred := by
  obtain ⟨ds, hds, hall⟩ := s.did_call call
  have hquiet := fun d hmem => (call_allows_inside (hall d hmem)).2.2
  generalize (call.perform s).2 = s' at hds
  clear hall
  induction hds with
  | nil s => exact ⟨.refl _, List.Subset.refl _⟩
  | @cons d ds s s₁ s' hdoes _ ih =>
    obtain ⟨hcut, henter, hleave, hflush⟩ := hquiet d List.mem_cons_self
    have hd₁ : s₁.manager.depth ≠ 0 := by rwa [hdoes.depth_eq henter hleave]
    obtain ⟨ht, hsub⟩ := ih hd₁ fun e he => hquiet e (List.mem_cons_of_mem _ he)
    have hone := hdoes.sameTraffic
    rw [hcut _ hd] at hone
    exact ⟨hone.trans ht, List.Subset.trans (hdoes.deferred_subset hleave hflush) hsub⟩

lemma foldl_abort_deferred {s : Site κ} (hd : s.manager.depth ≠ 0) (cs : List SocketId) :
    (cs.foldl abort s).manager.deferred = s.manager.deferred ++ cs := by
  induction cs generalizing s with
  | nil => exact (List.append_nil _).symm
  | cons c cs ih =>
    have hone : s.abort c = s.put { s.manager with deferred := s.manager.deferred ++ [c] } :=
      if_neg hd
    have hrest := @ih (s.abort c) (by rw [hone]; exact hd)
    rw [List.foldl_cons, hrest, hone, List.append_cons s.manager.deferred c cs]
    rfl

end Site

/-- The connections that a call at the manager gives up. -/
inductive Call.GivesUp {κ : Type} (m : Manager κ) : Call Handle κ → SocketId → Prop where
  | stream (h : Handle) (r : Stream κ) (c : SocketId) (hr : m.streams.get? h = some r)
      (hc : r.socket = some c) : GivesUp m (.close h) c
  | pending (l : Listener κ) (c : SocketId) (hl : m.listener = some l) (hc : c ∈ m.backlog.sockets) :
      GivesUp m .closeListener c

namespace Call

variable {κ : Type}

lemma GivesUp.mem_held {m : Manager κ} (hm : m.Coherent) {call : Call Handle κ} {c : SocketId}
    (h : call.GivesUp m c) : c ∈ m.held := by
  cases h with
  | stream h r c hr hc => simp [Manager.held, hm.mem_keys hr hc]
  | pending l c hl hc => simp [Manager.held, hc]

lemma GivesUp.deferred {s : Site κ} (hd : s.manager.depth ≠ 0) {call : Call Handle κ} {c : SocketId}
    (h : call.GivesUp s.manager c) : c ∈ (call.perform s).2.manager.deferred := by
  cases h with
  | stream h r c hr hc =>
    simp only [perform, Site.close, hr, hc]
    have hone : ∀ t : Site κ, t.manager.depth ≠ 0 → c ∈ (t.abort c).manager.deferred := by
      intro t ht
      rw [show t.abort c = [c].foldl Site.abort t from rfl, Site.foldl_abort_deferred ht]
      exact List.mem_append_right _ List.mem_cons_self
    exact hone _ hd
  | pending l c hl hc =>
    simp only [perform, Site.closeListener, hl]
    have hone : ∀ t : Site κ, t.manager.depth ≠ 0 →
        c ∈ (s.manager.backlog.sockets.foldl Site.abort t).manager.deferred := by
      intro t ht
      rw [Site.foldl_abort_deferred ht]
      exact List.mem_append_right _ hc
    exact hone _ hd

end Call

namespace Moment

variable {κ : Type}

/-- What another manager does, if it takes in no connection, leaves alone what `m` gave up. -/
lemma Orderly.isOpen_of_other {w : Moment κ} (hw : w.Orderly) {i j : Nat} {m : Manager κ}
    (hm : w.manager? i = some m) {s s' : Site κ} (hs : w.site? j = some s) (hij : j ≠ i)
    {ds : List Deed} (hds : Site.Did ds s s') (hall : ∀ d ∈ ds, d.admitted = [] ∧ ∀ c, d ≠ .refuse c)
    {c : SocketId} (hc : c ∈ m.deferred) : s'.network.isOpen c = w.network.isOpen c := by
  obtain ⟨hmj, hn, -⟩ := (w.site?_eq_some_iff j s).mp hs
  have hheld : c ∉ s.manager.held :=
    (hw.not_mem_of_mem_held hm (List.mem_append_right _ hc)).2 _ _ hij hmj
  rw [hn]
  exact hds.isOpen_eq (hw.coherent_site hs) (fun d hd => ⟨(hall d hd).1, (hall d hd).2 c⟩) hheld

/-- At the moment `w` manager `i`, which is `m`, waits for the answer to its notice `n`. -/
structure Answering (i : Nat) (a : Agenda) (n : Notice κ) (fs : List (Frame κ)) (w : Moment κ)
    (m : Manager κ) : Prop where
  orderly : w.Orderly
  frames : w.frames = ⟨i, a, some n⟩ :: fs
  manager : w.manager? i = some m

namespace Answering

variable {i : Nat} {a : Agenda} {n : Notice κ} {fs : List (Frame κ)} {w w' : Moment κ}
  {m : Manager κ}

lemma of_notice (hw : w.Orderly) (h : w.step .proceed = some (.notice i n, w')) :
    ∃ a fs m, Answering i a n fs w' m := by
  have hstep := step_cases h
  have hw' := (hstep.stage hw).orderly hw
  obtain ⟨-, s, hs, -⟩ := founded_notice h
  generalize ho : Outcome.notice i n = o at hstep
  cases hstep with
  | proceed j b fs t hf ht =>
    rw [proceed_eq] at ho hs hw'
    rw [proceed_eq]
    cases hn : (b.next t).2.2 with
    | none => rw [hn] at ho; cases ho
    | some n' =>
      rw [hn] at ho
      cases ho
      cases hb : (b.next t).1 with
      | none =>
        -- Only the last job of a turn leaves nothing to do, and it ends without a notice.
        rcases b with (_ | ⟨e, es⟩) | (_ | ⟨g, gs⟩) | _ <;> simp [Agenda.next] at hb hn
      | some b' =>
        rw [hn, hb] at hw' hs
        refine ⟨b', fs, s.manager, hw', ?_, ((site?_eq_some_iff _ _ s).mp hs).1⟩
        rfl

lemma depth (h : Answering i a n fs w m) : m.depth = 1 := by
  have hturns := h.orderly.turns
  rw [h.frames, List.map_cons, List.nodup_cons] at hturns
  rw [h.orderly.depth i m h.manager, h.frames, callers_cons, callers_eq_zero hturns.1]
  simp

lemma mayAct (h : Answering i a n fs w m) : w.mayAct = true := by
  simp [Moment.mayAct, h.frames]

lemma absent (h : Answering i a n fs w m) {c : SocketId} (hc : c ∈ m.deferred) :
    c ∉ m.sockets.keys ∧ c ∉ m.backlog.sockets := by
  have hn := (h.orderly.coherent i m h.manager).nodup_held
  rw [Manager.held, List.nodup_append] at hn
  exact ⟨fun hk => hn.2.2 c (List.mem_append_right _ hk) c hc rfl,
    fun hb => hn.2.2 c (List.mem_append_left _ hb) c hc rfl⟩

/-- What a callback does, but for starting a turn, starts no callback, and takes nothing back from what
was given up. -/
lemma step {mv : Move κ} {o : Outcome κ} (h : Answering i a n fs w m) (hs : Step w mv o w')
    (hl : mv ≠ .leave) (hb : ∀ j, mv ≠ .begin j) :
    (∀ j n', o ≠ .notice j n') ∧ ∃ m', Answering i a n fs w' m' ∧ m.deferred ⊆ m'.deferred ∧
      ∀ c ∈ m.deferred, mv ≠ .network (.peerClose c) → mv ≠ .network (.abort c) →
        w.network.isOpen c = true → w'.network.isOpen c = true := by
  have hw' := (hs.stage h.orderly).orderly h.orderly
  cases hs with
  | network act hact =>
    refine ⟨nofun, m, ⟨hw', h.frames, h.manager⟩, List.Subset.refl _, fun c hc hp ha hopen => ?_⟩
    exact Network.isOpen_perform (fun he => hp (he ▸ rfl)) (fun he => ha (he ▸ rfl)) hopen
  | call j call s hact hsite =>
    obtain ⟨hm, hn, -⟩ := (w.site?_eq_some_iff j s).mp hsite
    refine ⟨nofun, ?_⟩
    by_cases hij : j = i
    · subst hij
      rw [h.manager] at hm
      cases hm
      obtain ⟨ht, hsub⟩ := s.inside_call (by simp [h.depth]) call
      have hput := (manager?_put (lt_of_manager? h.manager) (call.perform s).2 j).trans (if_pos rfl)
      exact ⟨_, ⟨hw', h.frames, hput⟩, hsub, fun c hc _ _ hopen => (ht.opened c).trans (hn ▸ hopen)⟩
    · refine ⟨m, ⟨hw', h.frames, (manager?_put_of_ne w hij _).trans h.manager⟩, List.Subset.refl _,
        fun c hc _ _ hopen => ?_⟩
      obtain ⟨ds, hds, hall⟩ := s.did_call call
      have hout : ∀ d ∈ ds, d.admitted = [] ∧ ∀ c, d ≠ .refuse c := by
        intro d hmem
        obtain ⟨hadm, hrefuse, -⟩ := Site.call_allows_inside (hall d hmem)
        exact ⟨hadm, hrefuse⟩
      exact (h.orderly.isOpen_of_other h.manager hsite hij hds hout hc).trans hopen
  | note k hact => exact ⟨nofun, m, ⟨hw', h.frames, h.manager⟩, List.Subset.refl _, fun _ _ _ _ => id⟩
  | create p hact =>
    have hne : w.managers.length ≠ i := Nat.ne_of_gt (lt_of_manager? h.manager)
    exact ⟨nofun, m, ⟨hw', h.frames, ((manager?_create w p i).trans (if_neg hne)).trans h.manager⟩,
      List.Subset.refl _, fun _ _ _ _ => id⟩
  | release j s hact hj hsite =>
    have hij : j ≠ i := by
      rintro rfl
      simp [inTurn, h.frames] at hj
    refine ⟨nofun, m, ⟨hw', h.frames, ((manager?_release hsite i).trans (if_neg hij)).trans h.manager⟩,
      List.Subset.refl _, fun c hc _ _ hopen => ?_⟩
    obtain ⟨ds, hds, hall⟩ := s.did_release
    exact (h.orderly.isOpen_of_other h.manager hsite hij hds hall hc).trans hopen
  | begin j s hact hj hsite => exact absurd rfl (hb j)
  | proceed j b gs s hf hsite =>
    rw [h.frames] at hf
    cases hf
  | leave j b k gs s hf hsite => exact absurd rfl hl

lemma run {body : List (Move κ)} {es : History κ} (h : Answering i a n fs w m)
    (hbody : ∀ mv ∈ body, mv ≠ .leave ∧ ∀ j, mv ≠ .begin j) (hr : w.run body = some (es, w')) :
    (∀ e ∈ es, ∀ j n', e.2 ≠ .notice j n') ∧ ∃ m', Answering i a n fs w' m' ∧
      m.deferred ⊆ m'.deferred ∧ ∀ c ∈ m.deferred,
        (∀ mv ∈ body, mv ≠ .network (.peerClose c) ∧ mv ≠ .network (.abort c)) →
          w.network.isOpen c = true → w'.network.isOpen c = true := by
  induction body generalizing w m es with
  | nil =>
    cases hr
    exact ⟨fun e he => absurd he List.not_mem_nil, m, h, List.Subset.refl _, fun _ _ _ => id⟩
  | cons mv body ih =>
    obtain ⟨o, w₁, es', hs, hr', rfl⟩ := run_cons hr
    obtain ⟨hl, hb⟩ := hbody mv List.mem_cons_self
    obtain ⟨ho, m₁, h₁, hsub, hopen⟩ := h.step (step_cases hs) hl hb
    obtain ⟨hes, m', h', hsub', hopen'⟩ :=
      ih h₁ (fun mv hmv => hbody mv (List.mem_cons_of_mem _ hmv)) hr'
    refine ⟨fun e he => ?_, m', h', List.Subset.trans hsub hsub', fun c hc hno hw => ?_⟩
    · rcases List.mem_cons.mp he with rfl | he
      · exact ho
      · exact hes e he
    · obtain ⟨hp, ha⟩ := hno mv List.mem_cons_self
      exact hopen' c (hsub hc) (fun mv hmv => hno mv (List.mem_cons_of_mem _ hmv)) (hopen c hc hp ha hw)

/-- When the callback returns, what was given up is closed, and the turn goes on with what was left. -/
lemma leave (h : Answering i a n fs w m) : ∃ w', w.step .leave = some (.done, w') ∧
    w'.job? i = some a ∧ ∀ c ∈ m.deferred, w'.network.isOpen c = false := by
  have hs : w.site? i = some ⟨w.network, m, w.journal⟩ := by rw [site?, h.manager, Option.map_some]
  refine ⟨_, step_leave h.frames hs, job?_eq_some_iff.mpr ⟨fs, rfl⟩, fun c hc => ?_⟩
  show (Site.leave _).network.isOpen c = false
  rw [Site.leave]
  simp only [Site.put, h.depth, Nat.sub_self, if_true, Site.flush, Network.isOpen_foldl_close]
  simp [hc]

end Answering

/-- A callback that starts no turn starts no callback. While it runs the manager closes nothing, so that
what it gives up, although the manager knows of it no longer, stays open unless somebody else closes it;
as soon as it returns, all of that is closed, and of each connection the end is reported once. -/
theorem closing_deferred {ports : PortSource} {before body : List (Move κ)} {es₀ es : History κ}
    {w₀ w₁ w₂ : Moment κ} {i : Nat} {n : Notice κ}
    (hr₀ : (initial ports).run before = some (es₀, w₀))
    (hn : w₀.step .proceed = some (.notice i n, w₁))
    (hbody : ∀ mv ∈ body, mv ≠ .leave ∧ ∀ j, mv ≠ .begin j) (hr : w₁.run body = some (es, w₂)) :
    (∀ e ∈ es, ∀ j n', e.2 ≠ .notice j n') ∧
      ∃ m₂ w₃, w₂.manager? i = some m₂ ∧ m₂.depth = 1 ∧ w₂.step .leave = some (.done, w₃) ∧
        w₃.job? i = w₁.agenda? i ∧
        ∀ first x rest call m, w₁.trace body = first ++ x :: rest → x.move = .call i call →
          x.before.manager? i = some m →
          (∀ c, x.after.network.isOpen c = x.before.network.isOpen c) ∧
          x.after.network.queue = x.before.network.queue ∧
          ∀ c, call.GivesUp m c →
            c ∉ m₂.sockets.keys ∧ c ∉ m₂.backlog.sockets ∧
            (x.before.network.isOpen c = true →
              (∀ y ∈ rest, y.move ≠ .network (.peerClose c) ∧ y.move ≠ .network (.abort c)) →
                w₂.network.isOpen c = true) ∧
            w₃.network.isOpen c = false ∧
            ∀ after es' w₄, w₃.run after = some (es', w₄) →
              (reported ((initial ports).trace (before ++ .proceed :: (body ++ .leave :: after)))
                w₄.network).count ⟨c, .closed⟩ = 1 := by
  obtain ⟨a, fs, m₁, h₁⟩ := Answering.of_notice (orderly_run hr₀) hn
  obtain ⟨hes, m₂, h₂, -, -⟩ := h₁.run hbody hr
  obtain ⟨w₃, hleave, hjob, hclosed⟩ := h₂.leave
  have hagenda : w₁.agenda? i = some a := (agenda?_cons h₁.frames i).trans (if_pos rfl)
  refine ⟨hes, m₂, w₃, h₂.manager, h₂.depth, hleave, hjob.trans hagenda.symm, ?_⟩
  intro first x rest call m hx hmove hm
  obtain ⟨mvs₁, mvs₂, es₁, es₂, rfl, hr₁, -, hstep, hr₂, hrest⟩ := trace_split hr hx
  rw [hmove] at hstep
  have hbody₁ : ∀ mv ∈ mvs₁, mv ≠ .leave ∧ ∀ j, mv ≠ .begin j :=
    fun mv hmv => hbody mv (List.mem_append_left _ hmv)
  have hbody₂ : ∀ mv ∈ mvs₂, mv ≠ .leave ∧ ∀ j, mv ≠ .begin j :=
    fun mv hmv => hbody mv (List.mem_append_right _ (List.mem_cons_of_mem _ hmv))
  -- The callback still runs when the call is made.
  obtain ⟨-, m', hx₁, -, -⟩ := h₁.run hbody₁ hr₁
  obtain rfl : m' = m := Option.some.inj (hx₁.manager.symm.trans hm)
  have hd : m'.depth ≠ 0 := by simp [hx₁.depth]
  have hsite : x.before.site? i = some ⟨x.before.network, m', x.before.journal⟩ := by
    rw [site?, hm, Option.map_some]
  generalize hs : (⟨x.before.network, m', x.before.journal⟩ : Site κ) = s at hsite
  obtain rfl : s.manager = m' := by rw [← hs]
  have hnet : x.before.network = s.network := by rw [← hs]
  have hafter : x.after = x.before.put i (call.perform s).2 := by
    rw [step_call hx₁.mayAct hsite] at hstep
    exact (Prod.mk.inj (Option.some.inj hstep)).2.symm
  obtain ⟨ht, -⟩ := s.inside_call hd call
  refine ⟨fun c => ?_, ?_, fun c hc => ?_⟩
  · rw [hafter, hnet]
    exact ht.opened c
  · rw [hafter, hnet]
    exact ht.queue
  -- From then on it is among the deferred ones.
  obtain ⟨-, m'', hx₂, -, -⟩ := hx₁.step (step_cases hstep) (by simp) (by simp)
  have hc'' : c ∈ m''.deferred := by
    have hput := manager?_put (lt_of_manager? hm) (call.perform s).2 i
    rw [← hafter, if_pos rfl, hx₂.manager] at hput
    rw [Option.some.inj hput]
    exact hc.deferred hd
  obtain ⟨-, m₂', h₂', hsub, hopen⟩ := hx₂.run hbody₂ hr₂
  obtain rfl : m₂' = m₂ := Option.some.inj (h₂'.manager.symm.trans h₂.manager)
  obtain ⟨hkeys, hback⟩ := h₂'.absent (hsub hc'')
  have hc₃ := hclosed c (hsub hc'')
  refine ⟨hkeys, hback, fun ho hno => ?_, hc₃, fun after es' w₄ hr₄ => ?_⟩
  · refine hopen c hc'' (fun mv hmv => ?_) ?_
    · rw [← trace_moves hr₂, hrest] at hmv
      obtain ⟨y, hy, rfl⟩ := List.mem_map.mp hmv
      exact hno y hy
    · rw [hafter]
      exact (ht.opened c).trans (hnet ▸ ho)
  · have hx := run_append (run_step hr₀ hn) hr₁
    have htok := mem_tokens_of_mem_held hm (hc.mem_held (hx₁.orderly.coherent i _ hm))
    have hlast := run_append (run_append (run_single hstep) hr₂) (run_single hleave)
    have hend := closed_once hx htok hlast hc₃
    have hmem := List.count_pos_iff.mp (hend ▸ Nat.one_pos)
    have hall := run_append hlast hr₄
    have hcount := closed_once hx htok hall (stays_closed (run_append hx hlast) hmem hr₄)
    simpa [hmove] using hcount

theorem closing_deferred_own_stream : ∃ es₀ w₀ w₁ es w₂ w₃,
    (initial .standard).run (arrival ++ [.begin 0, .proceed, .proceed, .proceed]) = some (es₀, w₀) ∧
      w₀.step .proceed = some (.notice 0 (.offer ()), w₁) ∧
      w₁.run [.call 0 .accept, .call 0 (.close ⟨0, 1⟩)] = some (es, w₂) ∧
      w₂.network.isOpen ⟨2⟩ = true ∧ w₂.step .leave = some (.done, w₃) ∧
      w₃.network.isOpen ⟨2⟩ = false ∧
      (reported ((initial .standard).trace (arrival ++ [.begin 0, .proceed, .proceed, .proceed,
        .proceed, .call 0 .accept, .call 0 (.close ⟨0, 1⟩), .leave])) w₃.network).count
          ⟨⟨2⟩, .closed⟩ = 1 := by
  have hrun : ∃ es₀ w₀ w₁ o w o' w₂ m r,
      (initial .standard).run (arrival ++ [.begin 0, .proceed, .proceed, .proceed]) = some (es₀, w₀) ∧
      w₀.step .proceed = some (.notice 0 (.offer ()), w₁) ∧
      w₁.step (.call 0 .accept) = some (o, w) ∧
      w.step (.call 0 (.close ⟨0, 1⟩)) = some (o', w₂) ∧ w.manager? 0 = some m ∧
      m.streams.get? ⟨0, 1⟩ = some r ∧ r.socket = some ⟨2⟩ ∧ w.network.isOpen ⟨2⟩ = true :=
    ⟨_, _, _, _, _, _, _, _, _, rfl, rfl, rfl, rfl, rfl, rfl, rfl, rfl⟩
  obtain ⟨es₀, w₀, w₁, o, w, o', w₂, m, r, hr₀, hn, ha, hc, hm, hget, hsocket, hopen⟩ := hrun
  have hr := run_append (run_single ha) (run_single hc)
  have hx : w₁.trace [.call 0 .accept, .call 0 (.close ⟨0, 1⟩)] =
      [⟨w₁, .call 0 .accept, o, w⟩] ++ ⟨w, .call 0 (.close ⟨0, 1⟩), o', w₂⟩ :: [] := by
    rw [trace_cons ha, trace_cons hc, trace]
    rfl
  obtain ⟨-, m₂, w₃, -, -, hleave, -, hcalls⟩ := closing_deferred hr₀ hn (by simp) hr
  obtain ⟨-, -, hgiven⟩ := hcalls _ _ _ _ _ hx rfl hm
  obtain ⟨-, -, hstays, hclosed, honce⟩ := hgiven _ (.stream _ _ _ hget hsocket)
  have hcount := honce [] [] w₃ rfl
  simp only [List.append_assoc, List.cons_append, List.nil_append] at hcount
  exact ⟨es₀, w₀, w₁, _, w₂, w₃, hr₀, hn, hr, hstays hopen (by simp), hleave, hclosed, hcount⟩

end Moment

end BoundedStreams
