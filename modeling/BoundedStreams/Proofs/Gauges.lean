import BoundedStreams.Proofs.Trace
import Mathlib.Tactic.Abel

/-! The metrics against the managers. Whatever counts in the totals of a manager counts in the metrics
too, and whatever changes the occupancy records it, so that they do not drift apart in a run. -/

namespace BoundedStreams

attribute [ext] Totals

instance : Zero Totals := ⟨⟨0, 0, 0, 0⟩⟩

instance : Add Totals :=
  ⟨fun a b => ⟨a.accepted + b.accepted, a.rejected + b.rejected, a.evicted + b.evicted,
    a.orphaned + b.orphaned⟩⟩

instance : AddCancelCommMonoid Totals where
  add_assoc a b c := by ext <;> exact Nat.add_assoc _ _ _
  add_comm a b := by ext <;> exact Nat.add_comm _ _
  zero_add a := by ext <;> exact Nat.zero_add _
  add_zero a := rfl
  nsmul := nsmulRec
  add_left_cancel a b c h := by
    ext
    · exact Nat.add_left_cancel (congrArg Totals.accepted h)
    · exact Nat.add_left_cancel (congrArg Totals.rejected h)
    · exact Nat.add_left_cancel (congrArg Totals.evicted h)
    · exact Nat.add_left_cancel (congrArg Totals.orphaned h)

/-- The counters, with one for all refusals. -/
def Metrics.tally (m : Metrics) : Totals := ⟨m.accepted, m.refused, m.evicted, m.orphaned⟩

namespace Metrics

lemma tally_countAccepted (m : Metrics) : m.countAccepted.tally = m.tally + ⟨1, 0, 0, 0⟩ := rfl

lemma tally_countRefused (m : Metrics) (reason : Refusal) :
    (m.countRefused reason).tally = m.tally + ⟨0, 1, 0, 0⟩ := by
  cases reason with
  | noCapacity capacity active pending =>
    ext
    case rejected => exact Nat.add_right_comm _ _ _
    all_goals rfl
  | backlogFull pending limit => rfl

lemma tally_countEvicted (m : Metrics) : m.countEvicted.tally = m.tally + ⟨0, 0, 1, 0⟩ := rfl

lemma tally_countOrphaned (m : Metrics) : m.countOrphaned.tally = m.tally + ⟨0, 0, 0, 1⟩ := rfl

end Metrics

namespace Site

variable {κ : Type} {s s' s'' : Site κ}

/-- Counters and totals went up by the same. -/
def Counts (s s' : Site κ) : Prop :=
  ∃ d : Totals, s'.journal.metrics.tally = s.journal.metrics.tally + d ∧
    s'.manager.totals = s.manager.totals + d

/-- The occupancy recorded last, if any was, is that of the manager. -/
def Shown (s : Site κ) : Prop :=
  ∀ o, s.journal.metrics.occupancy = some o → o = (s.manager.active, s.manager.backlog.length)

structure Recorded (s s' : Site κ) : Prop where
  counts : Counts s s'
  shown : s.Shown → s'.Shown

lemma Counts.of_eq (hm : s'.journal.metrics = s.journal.metrics)
    (ht : s'.manager.totals = s.manager.totals) : Counts s s' :=
  ⟨0, by rw [hm, add_zero], by rw [ht, add_zero]⟩

lemma Counts.trans (h : Counts s s') (h' : Counts s' s'') : Counts s s'' := by
  obtain ⟨d, htally, htotals⟩ := h
  obtain ⟨d', htally', htotals'⟩ := h'
  exact ⟨d + d', by rw [htally', htally, add_assoc], by rw [htotals', htotals, add_assoc]⟩

lemma Counts.recorded (h : Counts s s') : Recorded s s'.recordOccupancy :=
  ⟨h, fun _ _ ho => (Option.some.inj ho).symm⟩

lemma Recorded.of_eq (hm : s'.journal.metrics = s.journal.metrics)
    (ht : s'.manager.totals = s.manager.totals) (ha : s'.manager.active = s.manager.active)
    (hb : s'.manager.backlog.length = s.manager.backlog.length) : Recorded s s' := by
  refine ⟨.of_eq hm ht, fun hs o ho => ?_⟩
  rw [ha, hb]
  exact hs o (hm ▸ ho)

lemma Recorded.refl (s : Site κ) : Recorded s s := .of_eq rfl rfl rfl rfl

lemma Recorded.trans (h : Recorded s s') (h' : Recorded s' s'') : Recorded s s'' :=
  ⟨h.counts.trans h'.counts, fun hs => h'.shown (h.shown hs)⟩

lemma recorded_note (s : Site κ) (n : Note) : Recorded s (s.note n) := .of_eq rfl rfl rfl rfl

lemma recorded_abort (s : Site κ) (c : SocketId) : Recorded s (s.abort c) := by
  rw [abort]
  split
  · exact .of_eq rfl rfl rfl rfl
  · exact .of_eq rfl rfl rfl rfl

lemma Counts.note (h : Counts s s') (n : Note) : Counts s (s'.note n) :=
  h.trans (recorded_note s' n).counts

lemma Counts.abort (h : Counts s s') (c : SocketId) : Counts s (s'.abort c) :=
  h.trans (recorded_abort s' c).counts

lemma recorded_aborts (cs : List SocketId) (s : Site κ) : Recorded s (cs.foldl abort s) := by
  induction cs generalizing s with
  | nil => exact .refl s
  | cons c cs ih => exact (s.recorded_abort c).trans (ih _)

lemma recorded_flush (s : Site κ) : Recorded s s.flush := .of_eq rfl rfl rfl rfl

lemma counts_put {m : Manager κ} (ht : m.totals = s.manager.totals) : Counts s (s.put m) :=
  .of_eq rfl ht

lemma totals_scheduleEnd (m : Manager κ) (h : Handle) : (m.scheduleEnd h).totals = m.totals := by
  rw [Manager.scheduleEnd]
  split <;> rfl

lemma recorded_scheduleEnd (s : Site κ) (h : Handle) : Recorded s (s.put (s.manager.scheduleEnd h)) := by
  rw [Manager.scheduleEnd]
  split
  · exact .of_eq rfl rfl rfl rfl
  · exact .of_eq rfl rfl rfl rfl

/-! ### Calls -/

lemma recorded_openListener (s : Site κ) (callback : κ) : Recorded s (s.openListener callback).2 := by
  rw [openListener]
  dsimp only
  split
  · exact .refl s
  · split
    · exact .of_eq rfl rfl rfl rfl
    · exact .of_eq rfl rfl rfl rfl

lemma recorded_closeListener (s : Site κ) : Recorded s s.closeListener := by
  rw [closeListener]
  split
  · exact .refl s
  · have hshut : ∀ n : Network, Counts s
        { s with network := n, manager := { s.manager with listener := none, backlog := [] } } :=
      fun _ => .of_eq rfl rfl
    apply Counts.recorded
    apply Counts.note
    exact (hshut _).trans (recorded_aborts _ _).counts

lemma recorded_accept (s : Site κ) : Recorded s s.accept.2 := by
  rw [accept]
  dsimp only
  split
  · exact s.recorded_note _
  · split
    · exact .refl s
    · apply Counts.recorded
      exact .of_eq rfl rfl

lemma recorded_close (s : Site κ) (h : Handle) : Recorded s (s.close h) := by
  rw [close]
  dsimp only
  split
  · exact s.recorded_note _
  · split
    · next c hc =>
      apply Counts.recorded
      apply Counts.note
      apply Counts.abort
      exact counts_put rfl
    · apply Counts.recorded
      exact .of_eq rfl rfl

lemma recorded_arm (s : Site κ) (h : Handle) (want : Interests) (callback : Option κ) :
    Recorded s (s.arm h want callback).2 := by
  rw [arm]
  split
  · exact s.recorded_note _
  · have harmed : Recorded s (s.put (s.manager.updateStream h (·.arm want callback))) :=
      .of_eq rfl rfl rfl rfl
    dsimp only
    split
    · exact harmed
    · split
      · apply harmed.trans
        rw [releaseOrphan]
        split
        · exact .of_eq rfl rfl rfl rfl
        · exact .refl _
      · exact harmed.trans (recorded_scheduleEnd _ h)

lemma recorded_read (s : Site κ) (h : Handle) (k : Nat) : Recorded s (s.read h k).2 := by
  rw [read]
  split
  · exact s.recorded_note _
  · split
    · exact .refl s
    · split
      · exact .refl s
      · exact .of_eq rfl rfl rfl rfl

lemma recorded_write (s : Site κ) (h : Handle) (bytes : Bytes) :
    Recorded s (s.write h bytes).2 := by
  rw [write]
  split
  · exact s.recorded_note _
  · split
    · exact .refl s
    · dsimp only
      split
      · exact .refl s
      · exact .of_eq rfl rfl rfl rfl

lemma recorded_call (s : Site κ) (c : Call Handle κ) : Recorded s (c.perform s).2 := by
  cases c with
  | openListener callback => exact s.recorded_openListener callback
  | closeListener => exact s.recorded_closeListener
  | accept => exact s.recorded_accept
  | close h => exact s.recorded_close h
  | closeOutput h => exact s.recorded_note _
  | arm h want callback => exact s.recorded_arm h want callback
  | read h k => exact s.recorded_read h k
  | write h bytes => exact s.recorded_write h bytes
  | port | state h | stats => exact .refl s

lemma recorded_closes (hs : List Handle) (s : Site κ) : Recorded s (hs.foldl close s) := by
  induction hs generalizing s with
  | nil => exact .refl s
  | cons h hs ih => exact (s.recorded_close h).trans (ih _)

lemma recorded_release (s : Site κ) : Recorded s s.release := by
  rw [release]
  apply (s.recorded_closeListener.trans (recorded_closes _ _)).trans
  exact .of_eq rfl rfl rfl rfl

/-! ### Jobs -/

lemma recorded_detach (s : Site κ) (h : Handle) (abortive : Bool) :
    Recorded s (s.detach h abortive) := by
  rw [detach]
  dsimp only
  split
  · exact .refl s
  · split
    · exact .refl s
    · next c hc =>
      have hcut : ∀ m : Manager κ, m.totals = s.manager.totals →
          Counts s (if abortive then (s.put m).abort c else s.put m) := by
        intro m hm
        cases abortive with
        | false => exact counts_put hm
        | true => exact (counts_put hm).abort c
      apply Counts.recorded
      -- A record that stays counts as an orphan, one that goes does not.
      split
      · refine .trans (hcut _ ?_) (.of_eq rfl ?_)
        · rfl
        · rfl
      · refine .trans (hcut _ ?_) ⟨⟨0, 0, 0, 1⟩, Metrics.tally_countOrphaned _, ?_⟩
        · rfl
        · exact totals_scheduleEnd _ h

lemma recorded_evict (s : Site κ) : Recorded s s.evict.2 := by
  rw [evict]
  dsimp only
  split
  · exact .refl s
  · split
    · exact s.recorded_note _
    · refine .trans ⟨⟨⟨0, 0, 1, 0⟩, ?_, ?_⟩, ?_⟩ (recorded_detach _ _ true)
      · exact Metrics.tally_countEvicted _
      · rfl
      · exact fun hs => hs

lemma recorded_judge (s : Site κ) : Recorded s s.judge.2 := by
  have hevict := s.recorded_evict
  rw [judge]
  split
  · split
    · next he => rw [he] at hevict; exact hevict
    · next he => rw [he] at hevict; exact hevict
  · exact .refl s

lemma recorded_onAccepted (s : Site κ) (c l : SocketId) : Recorded s (s.onAccepted c l) := by
  have hjudge := s.recorded_judge
  rw [onAccepted]
  split
  · exact (s.recorded_note _).trans (recorded_abort _ c)
  · dsimp only
    split
    · next he =>
      rw [he] at hjudge
      apply Counts.recorded
      apply hjudge.counts.trans
      exact ⟨⟨1, 0, 0, 0⟩, Metrics.tally_countAccepted _, rfl⟩
    · next u reason he =>
      rw [he] at hjudge
      apply Counts.recorded
      apply Counts.abort
      apply hjudge.counts.trans
      exact ⟨⟨0, 1, 0, 0⟩, Metrics.tally_countRefused _ _, rfl⟩

lemma recorded_onClosed (s : Site κ) (c : SocketId) : Recorded s (s.onClosed c) := by
  rw [onClosed]
  split
  · apply Counts.recorded
    exact .of_eq rfl rfl
  · split
    · exact (s.recorded_note _).trans (recorded_detach _ _ false)
    · exact .refl s

lemma recorded_evaluate (s : Site κ) (h : Handle) : Recorded s (s.evaluate h).1 := by
  rw [evaluate]
  split
  · exact .refl s
  · split
    · split
      · exact .refl s
      · split
        · exact .refl s
        · exact .of_eq rfl rfl rfl rfl
    · exact .refl s

lemma recorded_handle (s : Site κ) (e : SocketEvent) : Recorded s (s.handle e).1 := by
  rw [handle]
  split
  · exact s.recorded_onAccepted _ _
  · exact s.recorded_onClosed _
  all_goals
    split
    · exact s.recorded_evaluate _
    · exact .refl s

lemma recorded_deliverEnd (s : Site κ) (h : Handle) : Recorded s (s.deliverEnd h).1 := by
  rw [deliverEnd]
  split
  · exact .refl s
  · split
    · split
      · exact .of_eq rfl rfl rfl rfl
      · split
        · exact .refl s
        · exact .of_eq rfl rfl rfl rfl
    · exact .refl s

lemma recorded_offerPending (s : Site κ) : Recorded s s.offerPending.1 := by
  rw [offerPending]
  dsimp only
  split
  · exact .refl s
  · split
    · split
      · exact .refl s
      · next p backlog ho =>
        -- An offer marks a connection that stays pending.
        refine .of_eq rfl rfl rfl ?_
        have hsockets := congrArg List.length (Backlog.sockets_offer ho)
        simp only [Backlog.sockets, List.length_map] at hsockets
        exact hsockets
    · exact .refl s

lemma recorded_next (s : Site κ) (a : Agenda) : Recorded s (a.next s).2.1 := by
  rcases a with (_ | ⟨e, es⟩) | (_ | ⟨h, hs⟩) | _
  · exact .of_eq rfl rfl rfl rfl
  · exact s.recorded_handle e
  · exact s.recorded_offerPending
  · exact s.recorded_deliverEnd h
  · exact s.recorded_flush

lemma recorded_leave (s : Site κ) : Recorded s s.leave := by
  rw [leave]
  dsimp only
  split
  · exact .of_eq rfl rfl rfl rfl
  · exact .of_eq rfl rfl rfl rfl

end Site

namespace Moment

variable {κ : Type}

/-- What the managers that are there have counted. -/
def totals (w : Moment κ) : Totals := (w.managers.map (·.elim 0 Manager.totals)).sum

/-- What a manager that is released has counted in the end. -/
def releasedTotals : Stride κ → Totals
  | ⟨w, .release i, _, _⟩ => (w.site? i).elim 0 fun s => s.release.manager.totals
  | _ => 0

/-- What the managers that are gone have counted. -/
def pastTotals (past : List (Stride κ)) : Totals := (past.map releasedTotals).sum

lemma pastTotals_concat (past : List (Stride κ)) (x : Stride κ) :
    pastTotals (past ++ [x]) = pastTotals past + releasedTotals x := by
  simp [pastTotals]

lemma totals_set {w : Moment κ} {i : Nat} {m : Manager κ} (hm : w.manager? i = some m)
    (x : Option (Manager κ)) :
    ((w.managers.set i x).map (·.elim 0 Manager.totals)).sum + m.totals =
      w.totals + x.elim 0 Manager.totals :=
  sum_map_set w.managers (·.elim 0 Manager.totals) i (some m) x
    ((w.manager?_eq_some_iff i m).mp hm)

/-- The counters are those of all managers that ever were. If there was only one, its occupancy is shown. -/
structure Metered (past : List (Stride κ)) (w : Moment κ) : Prop where
  counters : w.journal.metrics.tally = pastTotals past + w.totals
  unborn : w.managers = [] → w.journal.metrics = .untouched
  sole : w.managers.length = 1 → ∀ s, w.site? 0 = some s →
    s.journal.metrics.tally = s.manager.totals ∧ s.Shown

lemma metered_initial (ports : PortSource) : Metered [] (initial ports : Moment κ) where
  counters := rfl
  unborn _ := rfl
  sole h := nomatch h

variable {past : List (Stride κ)} {w w' : Moment κ} {mv : Move κ} {o : Outcome κ}

lemma Metered.idle (h : Metered past w) (hx : releasedTotals ⟨w, mv, o, w'⟩ = 0)
    (hm : w'.managers = w.managers) (hj : w'.journal.metrics = w.journal.metrics) :
    Metered (past ++ [⟨w, mv, o, w'⟩]) w' where
  counters := by rw [hj, h.counters, pastTotals_concat, hx, add_zero, totals, totals, hm]
  unborn hnil := by rw [hj, h.unborn (hm ▸ hnil)]
  sole hone s hs := by
    obtain ⟨hs, -, hj'⟩ := (w'.site?_eq_some_iff 0 s).mp hs
    have hs₀ : w.site? 0 = some ⟨w.network, s.manager, w.journal⟩ := by
      rw [site?_eq_some_iff]
      refine ⟨?_, rfl, rfl⟩
      rw [← hs, manager?, manager?, hm]
    obtain ⟨htally, hshown⟩ := h.sole (hm ▸ hone) _ hs₀
    have hmetrics : s.journal.metrics = w.journal.metrics := by rw [← hj', hj]
    refine ⟨by rw [hmetrics]; exact htally, fun occ ho => ?_⟩
    rw [hmetrics] at ho
    exact hshown occ ho

lemma Metered.work (h : Metered past w) {i : Nat} {s s' : Site κ} {fs : List (Frame κ)}
    (hs : w.site? i = some s) (hw' : w' = w.during i s' fs) (hx : releasedTotals ⟨w, mv, o, w'⟩ = 0)
    (hrec : s.Recorded s') : Metered (past ++ [⟨w, mv, o, w'⟩]) w' := by
  subst hw'
  obtain ⟨hm, -, hj⟩ := (w.site?_eq_some_iff i s).mp hs
  have hlt := lt_of_manager? hm
  obtain ⟨d, htally, htotals⟩ := hrec.counts
  have hset := totals_set hm (some s'.manager)
  have hlen : (w.during i s' fs).managers.length = w.managers.length := List.length_set
  constructor
  case counters =>
    have hsum : (w.during i s' fs).totals = w.totals + d := by
      apply add_right_cancel (b := s.manager.totals)
      rw [add_assoc, add_comm d, ← htotals]
      exact hset
    show s'.journal.metrics.tally = _
    rw [htally, ← hj, h.counters, pastTotals_concat, hx, add_zero, hsum, add_assoc]
  case unborn =>
    intro hnil
    rw [hnil, List.length_nil] at hlen
    omega
  case sole =>
    intro hone t ht
    obtain rfl : i = 0 := by omega
    obtain rfl : t = s' := Option.some.inj (ht.symm.trans (site?_put hs s'))
    obtain ⟨htally₀, hshown⟩ := h.sole (hlen.symm.trans hone) s hs
    exact ⟨by rw [htally, htally₀, htotals], hrec.shown hshown⟩

lemma Metered.create (h : Metered past w) (p : Options) :
    Metered (past ++ [⟨w, .create p, .done, w.create p⟩]) (w.create p) where
  counters := by
    have hsum : (w.create p).totals = w.totals := by
      simp [totals, Moment.create, Manager.create]
      rfl
    have hx : releasedTotals ⟨w, .create p, .done, w.create p⟩ = 0 := rfl
    rw [pastTotals_concat, hsum, hx, add_zero]
    exact h.counters
  unborn hnil := by simp [Moment.create] at hnil
  sole hone s hs := by
    have hnil : w.managers = [] := by simpa [Moment.create] using hone
    obtain ⟨hm, -, hj⟩ := ((w.create p).site?_eq_some_iff 0 s).mp hs
    rw [manager?_create, if_pos (by rw [hnil]; rfl)] at hm
    have hmetrics : s.journal.metrics = .untouched := by
      rw [← hj]
      exact h.unborn hnil
    refine ⟨?_, fun occ ho => ?_⟩
    · rw [hmetrics, ← Option.some.inj hm]
      rfl
    · rw [hmetrics] at ho
      cases ho

lemma Metered.release (h : Metered past w) {i : Nat} {s : Site κ} (hs : w.site? i = some s) :
    Metered (past ++ [⟨w, .release i, .done, w.release i s⟩]) (w.release i s) := by
  obtain ⟨hm, -, hj⟩ := (w.site?_eq_some_iff i s).mp hs
  have hlt := lt_of_manager? hm
  obtain ⟨d, htally, htotals⟩ := s.recorded_release.counts
  have hlen : (w.release i s).managers.length = w.managers.length := List.length_set
  constructor
  case counters =>
    have hsum : (w.release i s).totals + s.manager.totals = w.totals := totals_set hm none
    have hx : releasedTotals ⟨w, .release i, .done, w.release i s⟩ = s.manager.totals + d := by
      rw [releasedTotals, hs]
      exact htotals
    show s.release.journal.metrics.tally = _
    rw [htally, ← hj, h.counters, pastTotals_concat, hx, ← hsum]
    abel
  case unborn =>
    intro hnil
    rw [hnil, List.length_nil] at hlen
    omega
  case sole =>
    intro hone t ht
    obtain rfl : i = 0 := by omega
    have hgone := ((site?_eq_some_iff _ 0 t).mp ht).1
    rw [manager?_release hs, if_pos rfl] at hgone
    cases hgone

lemma Metered.step (h : Metered past w) (hstep : Step w mv o w') :
    Metered (past ++ [⟨w, mv, o, w'⟩]) w' := by
  cases hstep with
  | network a hact => exact h.idle rfl rfl rfl
  | note n hact => exact h.idle rfl rfl rfl
  | create p hact => exact h.create p
  | release i s hact hi hs => exact h.release hs
  | begin i s hact hi hs => exact h.work hs rfl rfl (.of_eq rfl rfl rfl rfl)
  | call i c s hact hs => exact h.work hs rfl rfl (s.recorded_call c)
  | leave i a n fs s hf hs => exact h.work hs rfl rfl s.recorded_leave
  | proceed i a fs s hf hs =>
    have hnext := s.recorded_next a
    have henter : s.Recorded (a.next s).2.1.enter := hnext.trans (.of_eq rfl rfl rfl rfl)
    rw [proceed_eq]
    apply h.work hs rfl rfl
    cases (a.next s).2.2 with
    | none => exact hnext
    | some n => exact henter

/-- At every moment of a run, those in which a callback starts included, the counters are the totals of all
managers taken together. With one manager they are its totals, and the gauges, once set, show its occupancy. -/
theorem metrics_follow_totals {ports : PortSource} {mvs : List (Move κ)} {es : History κ}
    {w : Moment κ} (hr : (initial ports).run mvs = some (es, w)) :
    w.journal.metrics.tally = pastTotals ((initial ports).trace mvs) + w.totals ∧
      (w.managers.length = 1 → ∀ m, w.manager? 0 = some m →
        w.journal.metrics.tally = m.stats.totals ∧
          ∀ occ, w.journal.metrics.occupancy = some occ → occ = (m.stats.active, m.stats.pending)) := by
  have h := trace_invariant (P := Metered) (metered_initial ports)
    (fun past w₁ mv o w₂ _ hpast hstep => hpast.step hstep) hr
  refine ⟨h.counters, fun hone m hm => ?_⟩
  exact h.sole hone ⟨w.network, m, w.journal⟩ ((w.site?_eq_some_iff 0 _).mpr ⟨hm, rfl, rfl⟩)

/-- The one stream is evicted for the second of three connections, the third is refused, and the callback of
the orphan starts. -/
def crowdedOut : List (Move Unit) :=
  arrival ++ [.begin 0, .proceed, .proceed, .proceed, .proceed, .call 0 .accept,
    .call 0 (.arm ⟨0, 1⟩ .read (some ())), .leave, .proceed, .network (.connect 9000),
    .network (.connect 9000), .begin 0, .proceed, .proceed, .proceed, .proceed, .proceed, .proceed,
    .proceed]

/-- A second manager admits a connection after the first was released. -/
def succeeded : List (Move Unit) :=
  crowdedOut ++ [.leave, .proceed, .leave, .proceed, .create ⟨some 9001, 1, 1, 0, 0, 0, 64, 0⟩,
    .call 1 (.openListener ()), .release 0, .network (.connect 9001), .begin 1, .proceed, .proceed,
    .proceed, .proceed]

theorem metrics_follow_totals_eviction :
    (∃ es w m, (initial .standard).run crowdedOut = some (es, w) ∧ w.mayAct = true ∧
      w.frames.length = 1 ∧ w.managers.length = 1 ∧ w.manager? 0 = some m ∧
      w.journal.metrics.tally = m.stats.totals ∧ m.stats.totals = ⟨2, 1, 1, 1⟩ ∧
      w.journal.metrics.occupancy = some (m.stats.active, m.stats.pending) ∧ m.stats.pending = 1) ∧
    ∃ es w, (initial .standard).run succeeded = some (es, w) ∧
      w.journal.metrics.tally = pastTotals ((initial .standard).trace succeeded) + w.totals ∧
      w.totals = ⟨1, 0, 0, 0⟩ ∧ w.journal.metrics.tally = ⟨3, 1, 1, 1⟩ := by
  have hfirst : ∃ es w m, (initial .standard).run crowdedOut = some (es, w) ∧ w.mayAct = true ∧
      w.frames.length = 1 ∧ w.managers.length = 1 ∧ w.manager? 0 = some m ∧
      m.stats.totals = ⟨2, 1, 1, 1⟩ ∧ (∃ occ, w.journal.metrics.occupancy = some occ) ∧
      m.stats.pending = 1 := ⟨_, _, _, rfl, rfl, rfl, rfl, rfl, rfl, ⟨_, rfl⟩, rfl⟩
  have hthen : ∃ es w, (initial .standard).run succeeded = some (es, w) ∧
      w.totals = ⟨1, 0, 0, 0⟩ ∧ w.journal.metrics.tally = ⟨3, 1, 1, 1⟩ := ⟨_, _, rfl, rfl, rfl⟩
  obtain ⟨es, w, m, hr, hact, hframes, hone, hm, htotals, ⟨occ, ho⟩, hpending⟩ := hfirst
  obtain ⟨es', w', hr', hsum, htally'⟩ := hthen
  obtain ⟨-, hsole⟩ := metrics_follow_totals hr
  obtain ⟨hall, -⟩ := metrics_follow_totals hr'
  obtain ⟨htally, hshown⟩ := hsole hone m hm
  obtain rfl := hshown occ ho
  exact ⟨⟨es, w, m, hr, hact, hframes, hone, hm, htally, htotals, ho, hpending⟩, es', w', hr', hall, hsum,
    htally'⟩

end Moment

end BoundedStreams
