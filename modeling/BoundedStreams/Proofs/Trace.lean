import BoundedStreams.Proofs.Capacity
import BoundedStreams.Proofs.View

/-! The trace of a run: its steps, each with the moments before and after it. A statement about what
happened earlier in a run is one about its trace. -/

namespace BoundedStreams

structure Stride (κ : Type) where
  before : Moment κ
  move : Move κ
  outcome : Outcome κ
  after : Moment κ

def Stride.time {κ : Type} (x : Stride κ) : Nat := x.before.network.clock

namespace Moment

variable {κ : Type}

def trace (w : Moment κ) : List (Move κ) → List (Stride κ)
  | [] => []
  | mv :: mvs => (w.step mv).elim [] fun (o, w') => ⟨w, mv, o, w'⟩ :: trace w' mvs

lemma trace_cons {w w' : Moment κ} {mv : Move κ} {o : Outcome κ} (h : w.step mv = some (o, w'))
    (mvs : List (Move κ)) : w.trace (mv :: mvs) = ⟨w, mv, o, w'⟩ :: w'.trace mvs := by
  rw [trace, h, Option.elim_some]

lemma trace_append {w w' : Moment κ} {mvs : List (Move κ)} {es : History κ}
    (h : w.run mvs = some (es, w')) (mvs' : List (Move κ)) :
    w.trace (mvs ++ mvs') = w.trace mvs ++ w'.trace mvs' := by
  induction mvs generalizing w es with
  | nil =>
    cases h
    rfl
  | cons mv mvs ih =>
    obtain ⟨o, w₁, es', hs, hr, -⟩ := run_cons h
    rw [List.cons_append, trace_cons hs, trace_cons hs, ih hr, List.cons_append]

lemma trace_moves {w w' : Moment κ} {mvs : List (Move κ)} {es : History κ}
    (h : w.run mvs = some (es, w')) : (w.trace mvs).map (·.move) = mvs := by
  induction mvs generalizing w es with
  | nil => rfl
  | cons mv mvs ih =>
    obtain ⟨o, w₁, es', hs, hr, -⟩ := run_cons h
    rw [trace_cons hs, List.map_cons, ih hr]

/-- A run is cut before and after any of its strides. -/
lemma trace_split {w w' : Moment κ} {mvs : List (Move κ)} {es : History κ}
    {first rest : List (Stride κ)} {x : Stride κ} (h : w.run mvs = some (es, w'))
    (hx : w.trace mvs = first ++ x :: rest) :
    ∃ mvs₁ mvs₂ es₁ es₂, mvs = mvs₁ ++ x.move :: mvs₂ ∧ w.run mvs₁ = some (es₁, x.before) ∧
      w.trace mvs₁ = first ∧ x.before.step x.move = some (x.outcome, x.after) ∧
      x.after.run mvs₂ = some (es₂, w') ∧ x.after.trace mvs₂ = rest := by
  induction mvs generalizing w es first with
  | nil => simp [trace] at hx
  | cons mv mvs ih =>
    obtain ⟨o, w₁, es', hs, hr, -⟩ := run_cons h
    rw [trace_cons hs] at hx
    cases first with
    | nil =>
      obtain ⟨rfl, rfl⟩ := List.cons.inj hx
      exact ⟨[], mvs, [], es', rfl, rfl, rfl, hs, hr, rfl⟩
    | cons y first =>
      rw [List.cons_append] at hx
      obtain ⟨rfl, htail⟩ := List.cons.inj hx
      obtain ⟨mvs₁, mvs₂, es₁, es₂, rfl, hr₁, ht₁, hstep, hr₂, ht₂⟩ := ih hr htail
      refine ⟨mv :: mvs₁, mvs₂, (mv, o) :: es₁, es₂, rfl, ?_, ?_, hstep, hr₂, ht₂⟩
      · simp only [run, hs, Option.bind_some, hr₁, Option.map_some]
      · rw [trace_cons hs, ht₁]

lemma Reaches.of_run {w w' : Moment κ} {mvs : List (Move κ)} {es : History κ}
    (h : w.run mvs = some (es, w')) : w.Reaches w' := ⟨mvs, es, h⟩

lemma Reaches.orderly {ports : PortSource} {w : Moment κ} (h : (initial ports).Reaches w) :
    w.Orderly := by
  obtain ⟨mvs, es, hr⟩ := h
  exact orderly_run hr

lemma Reaches.within {ports : PortSource} {w : Moment κ} (h : (initial ports).Reaches w) {i : Nat}
    {m : Manager κ} (hm : w.manager? i = some m) : m.Within := by
  obtain ⟨mvs, es, hr⟩ := h
  exact lasting_within.run hr hm

lemma trace_invariant {P : List (Stride κ) → Moment κ → Prop} {w w' : Moment κ}
    {mvs : List (Move κ)} {es : History κ} (hP : P [] w)
    (hstep : ∀ past w₁ mv o w₂, w.Reaches w₁ → P past w₁ → Step w₁ mv o w₂ →
      P (past ++ [⟨w₁, mv, o, w₂⟩]) w₂)
    (hr : w.run mvs = some (es, w')) : P (w.trace mvs) w' := by
  suffices hgen : ∀ past w₁ mvs es, w.Reaches w₁ → P past w₁ → w₁.run mvs = some (es, w') →
      P (past ++ w₁.trace mvs) w' from hgen [] w mvs es (.refl w) hP hr
  intro past w₁ mvs
  induction mvs generalizing past w₁ with
  | nil =>
    intro es _ hpast hr₁
    cases hr₁
    rw [trace, List.append_nil]
    exact hpast
  | cons mv mvs ih =>
    intro es hreach hpast hr₁
    obtain ⟨o, w₂, es', hs, hr₂, -⟩ := run_cons hr₁
    rw [trace_cons hs, List.append_cons]
    exact ih _ w₂ es' (hreach.trans (.step mv o hs)) (hstep past w₁ mv o w₂ hreach hpast
      (step_cases hs)) hr₂

/-- What is so at one moment of a run and is kept by every step is so at all later ones. -/
lemma Reaches.invariant {ports : PortSource} {P : Moment κ → Prop} {w w' : Moment κ}
    (hreach : (initial ports).Reaches w)
    (hstep : ∀ u mv o u', (initial ports).Reaches u → P u → Step u mv o u' → P u')
    (h : w.Reaches w') (hP : P w) : P w' := by
  obtain ⟨mvs, es, hr⟩ := h
  exact trace_invariant (P := fun _ u => P u) hP
    (fun _ u mv o u' hu => hstep u mv o u' (hreach.trans hu)) hr

/-! ### Jobs -/

/-- What manager `i` has to do next, if the next step is its. -/
def job? (w : Moment κ) (i : Nat) : Option Agenda :=
  match w.frames with
  | ⟨j, a, none⟩ :: _ => if j = i then some a else none
  | _ => none

lemma job?_eq_some_iff {w : Moment κ} {i : Nat} {a : Agenda} :
    w.job? i = some a ↔ ∃ fs, w.frames = ⟨i, a, none⟩ :: fs := by
  rw [job?]
  split
  · next j b fs hw =>
    split
    · next hj => simp [hw, hj]
    · next hj => simp [hw, hj]
  · next hw =>
    simp only [reduceCtorEq, false_iff, not_exists]
    exact fun fs he => hw i a fs he

lemma job?_of_frames {w : Moment κ} {i j : Nat} {a : Agenda} {n : Option (Notice κ)}
    {fs : List (Frame κ)} (hw : w.frames = ⟨i, a, n⟩ :: fs) (h : n ≠ none ∨ i ≠ j) :
    w.job? j = none := by
  rw [Option.eq_none_iff_forall_ne_some]
  intro b hb
  obtain ⟨fs', hw'⟩ := job?_eq_some_iff.mp hb
  rw [hw] at hw'
  simp only [List.cons.injEq, Frame.mk.injEq] at hw'
  obtain ⟨⟨rfl, -, rfl⟩, -⟩ := hw'
  simp at h

lemma job?_of_mayAct {w : Moment κ} (hw : w.mayAct = true) (i : Nat) : w.job? i = none := by
  rw [Option.eq_none_iff_forall_ne_some]
  intro a ha
  obtain ⟨fs, hf⟩ := job?_eq_some_iff.mp ha
  simp [mayAct, hf] at hw

lemma agenda?_of_job? {w : Moment κ} {i : Nat} {a : Agenda} (h : w.job? i = some a) :
    w.agenda? i = some a := by
  obtain ⟨fs, hf⟩ := job?_eq_some_iff.mp h
  exact (agenda?_cons hf i).trans (if_pos rfl)

/-- A job is done by the next step, which is that of no one else. -/
lemma step_of_job? {w : Moment κ} {i : Nat} {a : Agenda} {s : Site κ} (h : w.job? i = some a)
    (hs : w.site? i = some s) :
    ∃ w', w.step .proceed = some ((a.next s).2.2.elim .done (.notice i), w') ∧
      w'.manager? i = some
        ((a.next s).2.2.elim (a.next s).2.1 fun _ => (a.next s).2.1.enter).manager := by
  obtain ⟨fs, hf⟩ := job?_eq_some_iff.mp h
  have hstep := step_proceed hf hs
  rw [proceed_eq] at hstep
  exact ⟨_, hstep, (manager?_put (lt_of_manager? (manager?_of_site? hs)) _ i).trans
    (if_pos rfl)⟩

lemma move_of_job? {w w' : Moment κ} {i : Nat} {a : Agenda} {mv : Move κ} {o : Outcome κ}
    (h : w.job? i = some a) (hstep : Step w mv o w') : mv = .proceed := by
  obtain ⟨fs, hf⟩ := job?_eq_some_iff.mp h
  cases hstep with
  | network _ hw | call _ _ _ hw _ | note _ hw | create _ hw | release _ _ hw _ _
  | begin _ _ hw _ _ => simp [mayAct, hf] at hw
  | proceed _ _ _ _ _ _ => rfl
  | leave k b n fs' s hf' hs =>
    rw [hf] at hf'
    cases hf'

/-! ### Connections that come in -/

lemma mem_tokens_of_mem_held {w : Moment κ} {i : Nat} {m : Manager κ} (hm : w.manager? i = some m)
    {c : SocketId} (hc : c ∈ m.held) : c ∈ w.tokens := by
  refine List.mem_append_right _ (List.mem_flatMap.mpr ⟨some m, ?_, hc⟩)
  exact List.mem_of_getElem? ((w.manager?_eq_some_iff i m).mp hm)

lemma Stage.nextId_le {w w' : Moment κ} {mv : Move κ} {o : Outcome κ} (h : Stage w mv o w') :
    w.network.nextId ≤ w'.network.nextId := by
  cases h with
  | network a =>
    have hs := w.network.shift_perform a
    show w.network.nextId ≤ (w.network.perform a).2.nextId
    generalize (w.network.perform a).2 = n at hs
    cases hs with
    | quiet ht | peerSend s bs ht => exact ht.nextId
    | connect p l => exact Nat.le_succ _
    | close c => exact Nat.le_of_eq (w.network.nextId_close c).symm
    | poll => exact Nat.le_refl _
  | note n | create p => exact Nat.le_refl _
  | release i s hi hs =>
    obtain ⟨ds, hds, -⟩ := s.did_release
    rw [((w.site?_eq_some_iff i s).mp hs).2.1]
    exact hds.traffic.2
  | begin i s hi hs =>
    rw [((w.site?_eq_some_iff i s).mp hs).2.1]
    exact Nat.le_refl _
  | @work _ _ i s s' ds fs h =>
    rw [((w.site?_eq_some_iff i s).mp h.site).2.1]
    exact h.did.traffic.2

lemma Stage.mem_arriving {w w' : Moment κ} {mv : Move κ} {o : Outcome κ} (h : Stage w mv o w')
    {c : SocketId} (hc : c ∈ w'.arriving) : c ∈ w.arriving ∨
      w.network.nextId ≤ c.num ∧ c ∈ awaiting w'.network.queue := by
  simp only [arriving, List.mem_append] at hc ⊢
  cases h with
  | network a =>
    have hs := w.network.shift_perform a
    generalize (w.network.perform a).2 = n at hs hc
    cases hs with
    | quiet ht => exact .inl (ht.queue ▸ hc)
    | connect p l =>
      simp only [awaiting_append, List.mem_append] at hc ⊢
      rcases hc with hc | hc | hc
      · exact .inl (.inl hc)
      · exact .inl (.inr hc)
      · have he : c = ⟨w.network.nextId⟩ := List.mem_singleton.mp hc
        exact .inr ⟨he ▸ Nat.le_refl _, .inr hc⟩
    | peerSend s bs ht =>
      have hnone : awaiting [⟨s, .received⟩] = [] := rfl
      rw [Network.enqueue, awaiting_append, ht.queue, hnone, List.append_nil] at hc
      exact .inl hc
    | close d =>
      rw [Network.awaiting_close] at hc
      exact .inl hc
    | poll => exact .inl (hc.imp id fun h => absurd h List.not_mem_nil)
  | note n => exact .inl hc
  | create p => exact .inl hc
  | release i s hi hs =>
    obtain ⟨ds, hds, -⟩ := s.did_release
    have hn := ((w.site?_eq_some_iff i s).mp hs).2.1
    refine .inl (hc.imp id fun hq => ?_)
    rw [hn, ← hds.traffic.1]
    exact hq
  | begin i s hi hs =>
    have hn := ((w.site?_eq_some_iff i s).mp hs).2.1
    simp only [Moment.begin, during, Site.begin, put, List.flatMap_cons, Agenda.batch,
      awaiting_append, List.mem_append, Network.awaiting_poll] at hc
    rcases hc with (hc | hc) | hc
    · exact .inl (.inr (hn ▸ hc))
    · exact .inl (.inl hc)
    · exact absurd hc List.not_mem_nil
  | @work _ _ i s s' ds fs h =>
    have hn := ((w.site?_eq_some_iff i s).mp h.site).2.1
    refine .inl (hc.imp (fun hb => h.batch.subset (List.mem_append_right _ hb)) fun hq => ?_)
    rw [hn, ← h.did.traffic.1]
    exact hq

/-- The network has told of the connection, if it ever will. -/
def Landed (w : Moment κ) (c : SocketId) : Prop := c.num < w.network.nextId ∧ c ∉ w.arriving

lemma Landed.stage {w w' : Moment κ} {mv : Move κ} {o : Outcome κ} {c : SocketId} (hc : w.Landed c)
    (h : Stage w mv o w') : w'.Landed c := by
  obtain ⟨hnum, harr⟩ := hc
  refine ⟨Nat.lt_of_lt_of_le hnum h.nextId_le, fun hmem => ?_⟩
  rcases h.mem_arriving hmem with hmem | ⟨hle, -⟩
  · exact harr hmem
  · exact absurd hnum (Nat.not_lt.mpr hle)

lemma mem_arriving_of_job? {w : Moment κ} {i : Nat} {c l : SocketId} {es : List SocketEvent}
    (hj : w.job? i = some (.events (⟨c, .accepted l⟩ :: es))) : c ∈ w.arriving := by
  obtain ⟨fs, hf⟩ := job?_eq_some_iff.mp hj
  refine List.mem_append_left _ ((mem_awaiting_iff _ c).mpr ⟨l, ?_⟩)
  rw [hf]
  exact List.mem_append_left _ List.mem_cons_self

lemma Stage.mem_held {w w' : Moment κ} {mv : Move κ} {o : Outcome κ} (hw : w.Orderly)
    (h : Stage w mv o w') {c : SocketId} (hc : c ∈ w'.held) : c ∈ w.held ∨ c ∈ w.arriving := by
  cases h with
  | network a | note n => exact .inl hc
  | create p =>
    left
    simpa [held, Moment.create, Manager.held, Manager.create, Table.keys, Table.empty,
      Backlog.sockets] using hc
  | release i s hi hs =>
    obtain ⟨hm, -, -⟩ := (w.site?_eq_some_iff i s).mp hs
    have hcount := count_held_set hm none c
    have hpos : 0 < ((w.managers.set i none).flatMap (·.elim [] Manager.held)).count c :=
      List.count_pos_iff.mpr hc
    simp only [Option.elim_none, List.count_nil] at hcount
    exact .inl (List.count_pos_iff.mp (by omega))
  | begin i s hi hs =>
    obtain ⟨hm, -, -⟩ := (w.site?_eq_some_iff i s).mp hs
    have hcount := count_held_set hm (some s.begin.2.manager) c
    have hpos : 0 < ((w.managers.set i (some s.begin.2.manager)).flatMap
        (·.elim [] Manager.held)).count c := List.count_pos_iff.mpr hc
    have hsame : s.begin.2.manager.held = s.manager.held := rfl
    simp only [Option.elim_some, hsame] at hcount
    exact .inl (List.count_pos_iff.mp (by omega))
  | @work _ _ i s s' ds fs h =>
    obtain ⟨hm, -, -⟩ := (w.site?_eq_some_iff i s).mp h.site
    have hcount := count_held_set hm (some s'.manager) c
    have hpos : 0 < ((w.managers.set i (some s'.manager)).flatMap
        (·.elim [] Manager.held)).count c := List.count_pos_iff.mpr hc
    have hle := h.did.count_held_le (hw.coherent_site h.site) (h.single hw) c
    simp only [Option.elim_some] at hcount
    -- What the manager holds now it held before, or it was in the batch.
    by_cases hadm : c ∈ ds.flatMap Deed.admitted
    · right
      rw [arriving, List.mem_append]
      exact .inl (h.batch.subset (List.mem_append_left _ hadm))
    · rw [List.count_eq_zero.mpr hadm] at hle
      exact .inl (List.count_pos_iff.mp (by omega))

end Moment

end BoundedStreams
