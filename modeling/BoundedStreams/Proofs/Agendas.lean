import BoundedStreams.Proofs.Trace

/-! What is left of a turn, put in place of what was. It matters to no move but the next job of that turn,
and an event that leads to nothing can stand ahead of it. -/

namespace BoundedStreams

def Frame.replan {κ : Type} (i : Nat) (b : Agenda) (f : Frame κ) : Frame κ :=
  { f with agenda := if f.manager = i then b else f.agenda }

namespace Moment

variable {κ : Type} {w u : Moment κ} {mv : Move κ} {o : Outcome κ} {i : Nat}

/-- The turn that manager `i` is in. -/
def frame? (w : Moment κ) (i : Nat) : Option (Frame κ) := w.frames.find? (·.manager = i)

/-- The moment with `b` as what is left of the turn of manager `i`. -/
def replan (w : Moment κ) (i : Nat) (b : Agenda) : Moment κ :=
  { w with frames := w.frames.map (Frame.replan i b) }

lemma mayAct_replan (w : Moment κ) (i : Nat) (b : Agenda) : (w.replan i b).mayAct = w.mayAct := by
  rw [mayAct, mayAct, replan]
  cases w.frames with
  | nil => rfl
  | cons f fs => rfl

lemma inTurn_replan (w : Moment κ) (i : Nat) (b : Agenda) (j : Nat) :
    (w.replan i b).inTurn j = w.inTurn j := by
  rw [inTurn, inTurn, replan, List.any_map]
  rfl

lemma frames_replan_cons {j : Nat} {a : Agenda} {n : Option (Notice κ)} {fs : List (Frame κ)}
    (hw : w.frames = ⟨j, a, n⟩ :: fs) (i : Nat) (b : Agenda) : (w.replan i b).frames =
      ⟨j, if j = i then b else a, n⟩ :: fs.map (Frame.replan i b) := by
  rw [replan, hw, List.map_cons, Frame.replan]

lemma replan_during (w : Moment κ) (i j : Nat) (b : Agenda) (s : Site κ) (fs : List (Frame κ)) :
    (w.during j s fs).replan i b = (w.replan i b).during j s (fs.map (Frame.replan i b)) := rfl

lemma frame?_cons {j : Nat} {a : Agenda} {n : Option (Notice κ)} {fs : List (Frame κ)}
    (hw : w.frames = ⟨j, a, n⟩ :: fs) (i : Nat) :
    w.frame? i = if j = i then some ⟨j, a, n⟩ else fs.find? (·.manager = i) := by
  rw [frame?, hw, List.find?_cons]
  by_cases hj : j = i <;> simp [hj]

lemma inTurn_of_frame? {f : Frame κ} (hf : w.frame? i = some f) : w.inTurn i = true := by
  rw [inTurn, ← List.isSome_find?]
  exact congrArg Option.isSome hf

lemma job?_of_calling {a : Agenda} {n : Notice κ} (hf : w.frame? i = some ⟨i, a, some n⟩) :
    w.job? i = none := by
  rw [Option.eq_none_iff_forall_ne_some]
  intro b hb
  obtain ⟨fs, hframes⟩ := job?_eq_some_iff.mp hb
  rw [frame?_cons hframes, if_pos rfl] at hf
  cases hf

/-- No other turn is of the manager that has the word. -/
lemma replan_eq {a : Agenda} {n : Option (Notice κ)} {fs : List (Frame κ)} (hw : w.Orderly)
    (hf : w.frames = ⟨i, a, n⟩ :: fs) (b : Agenda) :
    w.replan i b = { w with frames := ⟨i, b, n⟩ :: fs } := by
  have hn := hw.turns
  rw [hf, List.map_cons, List.nodup_cons] at hn
  have hrest : fs.map (Frame.replan i b) = fs := by
    refine (List.map_congr_left fun f hmem => ?_).trans fs.map_id
    have hne : f.manager ≠ i := by
      rintro rfl
      exact hn.1 (List.mem_map.mpr ⟨f, hmem, rfl⟩)
    simp [Frame.replan, hne]
  simp [replan, hf, hrest, Frame.replan]

lemma step_event {s : Site κ} {e : SocketEvent} {es : List SocketEvent} {fs : List (Frame κ)}
    (hf : w.frames = ⟨i, .events (e :: es), none⟩ :: fs) (hs : w.site? i = some s) :
    w.step .proceed = some ((s.handle e).2.elim .done (.notice i), w.during i
      ((s.handle e).2.elim (s.handle e).1 fun _ => (s.handle e).1.enter)
      (⟨i, .events es, (s.handle e).2⟩ :: fs)) := by
  rw [step_proceed hf hs, proceed_eq]
  rfl

/-- An event is handled in the same way whatever comes after it. -/
lemma Step.event {s : Site κ} {e : SocketEvent} {es : List SocketEvent} {fs : List (Frame κ)}
    (hst : Step w .proceed o u) (hw : w.Orderly)
    (hf : w.frames = ⟨i, .events (e :: es), none⟩ :: fs) (hs : w.site? i = some s) :
    u.frames = ⟨i, .events es, (s.handle e).2⟩ :: fs ∧
      u.site? i = some ((s.handle e).2.elim (s.handle e).1 fun _ => (s.handle e).1.enter) ∧
      ∀ es', (w.replan i (.events (e :: es'))).step .proceed = some (o, u.replan i (.events es')) := by
  have hu := (hst.stage hw).orderly hw
  have hboth := hst.eq_some.symm.trans (step_event hf hs)
  simp only [Option.some.injEq, Prod.mk.injEq] at hboth
  obtain ⟨rfl, rfl⟩ := hboth
  refine ⟨rfl, site?_put hs _, fun es' => ?_⟩
  rw [replan_eq hw hf, replan_eq hu rfl]
  exact step_event rfl hs

/-- An event that leads to nothing can stand ahead of a turn. -/
lemma step_silent {s : Site κ} {e : SocketEvent} {es : List SocketEvent} {fs : List (Frame κ)}
    (hw : w.Orderly) (hf : w.frames = ⟨i, .events es, none⟩ :: fs) (hs : w.site? i = some s)
    (he : s.handle e = (s, none)) :
    (w.replan i (.events (e :: es))).step .proceed = some (.done, w) := by
  have hstep := step_event (w := { w with frames := ⟨i, .events (e :: es), none⟩ :: fs }) rfl hs
  rw [replan_eq hw hf, hstep, he]
  have hsame : ({ w with frames := ⟨i, .events (e :: es), none⟩ :: fs } : Moment κ).during i s
      (⟨i, .events es, none⟩ :: fs) = { w.put i s with frames := w.frames } := by
    rw [hf]
    rfl
  simp only [Option.elim_none, hsame, put_self hs]

/-- What a turn has ahead matters to no step but the turn's own. -/
lemma Step.replan {a : Agenda} {n : Option (Notice κ)} (h : Step w mv o u)
    (hf : w.frame? i = some ⟨i, a, n⟩) (hj : w.job? i = none) :
    ∃ n', u.frame? i = some ⟨i, a, n'⟩ ∧ (n' = n ∨ u.job? i = some a) ∧
      ∀ b, Step (w.replan i b) mv o (u.replan i b) := by
  have hact' := w.mayAct_replan i
  have hturn' := w.inTurn_replan i
  cases h with
  | network x hact => exact ⟨n, hf, .inl rfl, fun b => .network x ((hact' b).trans hact)⟩
  | note x hact => exact ⟨n, hf, .inl rfl, fun b => .note x ((hact' b).trans hact)⟩
  | create p hact => exact ⟨n, hf, .inl rfl, fun b => .create p ((hact' b).trans hact)⟩
  | call k x s hact hs => exact ⟨n, hf, .inl rfl, fun b => .call k x s ((hact' b).trans hact) hs⟩
  | release k s hact hk hs =>
    exact ⟨n, hf, .inl rfl,
      fun b => .release k s ((hact' b).trans hact) ((hturn' b k).trans hk) hs⟩
  | begin k s hact hk hs =>
    have hki : k ≠ i := by
      rintro rfl
      rw [inTurn_of_frame? hf] at hk
      cases hk
    refine ⟨n, (frame?_cons rfl i).trans ((if_neg hki).trans hf), .inl rfl, fun b => ?_⟩
    have hbegin : (w.begin k s).replan i b = (w.replan i b).begin k s := by
      rw [Moment.begin, replan_during, List.map_cons, Frame.replan, if_neg hki]
      rfl
    rw [hbegin]
    exact .begin k s ((hact' b).trans hact) ((hturn' b k).trans hk) hs
  | proceed k x fs s hw hs =>
    have hki : k ≠ i := by
      rintro rfl
      rw [job?_eq_some_iff.mpr ⟨fs, hw⟩] at hj
      cases hj
    rw [frame?_cons hw, if_neg hki] at hf
    refine ⟨n, ?_, .inl rfl, fun b => ?_⟩
    · rw [proceed_eq]
      cases (x.next s).1 with
      | none => exact hf
      | some y => exact (frame?_cons rfl i).trans ((if_neg hki).trans hf)
    · have hw' := frames_replan_cons hw i b
      rw [if_neg hki] at hw'
      have hstep := Step.proceed k x _ s hw' hs
      rw [proceed_eq] at hstep ⊢
      rw [replan_during]
      cases hnext : (x.next s).1 with
      | none =>
        rw [hnext] at hstep
        exact hstep
      | some y =>
        rw [hnext] at hstep
        rw [Option.elim_some, List.map_cons, Frame.replan, if_neg hki]
        exact hstep
  | leave k x m fs s hw hs =>
    have hstep : ∀ b, Step (w.replan i b) .leave .done
        ((w.during k s.leave (⟨k, x, none⟩ :: fs)).replan i b) := by
      intro b
      rw [replan_during]
      exact .leave k _ m _ s (frames_replan_cons hw i b) hs
    rw [frame?_cons hw] at hf
    by_cases hki : k = i
    · subst hki
      obtain ⟨rfl, rfl⟩ : x = a ∧ some m = n := by simpa using hf
      exact ⟨none, (frame?_cons rfl k).trans (if_pos rfl),
        .inr (job?_eq_some_iff.mpr ⟨fs, rfl⟩), hstep⟩
    · rw [if_neg hki] at hf
      exact ⟨n, (frame?_cons rfl i).trans ((if_neg hki).trans hf), .inl rfl, hstep⟩

end Moment

end BoundedStreams
