import BoundedStreams.Proofs.Lifecycle
import BoundedStreams.Proofs.Treatment

/-! A run as one manager sees it, and what its steps make of one of the manager's streams. -/

namespace BoundedStreams

namespace Agenda

/-- What is left after the next job. The orphans that are due were not known before. -/
def rest : Agenda → Option Agenda
  | .events [] => none
  | .events (_ :: es) => some (.events es)
  | .ends [] => some .flush
  | .ends (_ :: hs) => some (.ends hs)
  | .flush => none

lemma next_eq_rest {κ : Type} (s : Site κ) {a : Agenda} (ha : a ≠ .events []) :
    (a.next s).1 = a.rest := by
  rcases a with (_ | ⟨e, es⟩) | (_ | ⟨h, hs⟩) | _
  · exact absurd rfl ha
  all_goals rfl

end Agenda

namespace Moment

variable {κ : Type}

/-- What is left of the turn that manager `i` is in. -/
def agenda? (w : Moment κ) (i : Nat) : Option Agenda :=
  (w.frames.find? (·.manager = i)).map (·.agenda)

lemma inTurn_eq_isSome (w : Moment κ) (i : Nat) : w.inTurn i = (w.agenda? i).isSome := by
  rw [inTurn, agenda?, Option.isSome_map, List.isSome_find?]

lemma agenda?_eq_none {w : Moment κ} {i : Nat} (hi : w.inTurn i = false) : w.agenda? i = none := by
  rw [inTurn_eq_isSome] at hi
  simpa using hi

lemma Step.ne_of_inTurn {w w' : Moment κ} {mv : Move κ} {o : Outcome κ} {i : Nat}
    (hst : Step w mv o w') (hi : w.inTurn i = true) :
    mv ≠ .begin i ∧ mv ≠ .release i := by
  refine ⟨?_, ?_⟩ <;> rintro rfl
  · cases hst with
    | begin i s hact hi' hs => simp [hi] at hi'
  · cases hst with
    | release i s hact hi' hs => simp [hi] at hi'

lemma agenda?_cons {w : Moment κ} {j : Nat} {a : Agenda} {n : Option (Notice κ)}
    {fs : List (Frame κ)} (hw : w.frames = ⟨j, a, n⟩ :: fs) (i : Nat) :
    w.agenda? i = if j = i then some a else (fs.find? (·.manager = i)).map (·.agenda) := by
  rw [agenda?, hw, List.find?_cons]
  by_cases hj : j = i <;> simp [hj]

/-- A step as manager `i` sees it. -/
inductive View (w : Moment κ) (i : Nat) (w' : Moment κ) : Move κ → Outcome κ → Prop where
  | apart (mv : Move κ) (o : Outcome κ) (hm : w'.manager? i = w.manager? i)
      (ha : w'.agenda? i = w.agenda? i) (hn : ∀ n, o ≠ .notice i n) (hc : ∀ c, mv ≠ .call i c)
      (hb : mv ≠ .begin i) (hr : mv ≠ .release i) : View w i w' mv o
  | born (o : Options) (hi : w.managers.length = i)
      (hm : w'.manager? i = some (Manager.create o w.ports).1) (ha : w'.agenda? i = none) :
      View w i w' (.create o) .done
  | gone (hm : w'.manager? i = none) (ha : w.agenda? i = none) (ha' : w'.agenda? i = none) :
      View w i w' (.release i) .done
  | begin (s : Site κ) (hs : w.site? i = some s) (hs' : w'.site? i = some s.begin.2)
      (ha : w.agenda? i = none) (ha' : w'.agenda? i = some (.events s.begin.1)) :
      View w i w' (.begin i) .done
  | call (c : Call Handle κ) (s : Site κ) (hs : w.site? i = some s)
      (hs' : w'.site? i = some (c.perform s).2) (ha : w'.agenda? i = w.agenda? i) :
      View w i w' (.call i c) (.call (c.perform s).1)
  | job (a : Agenda) (s : Site κ) (hs : w.site? i = some s) (ha : w.agenda? i = some a)
      (hs' : w'.site? i =
        some ((a.next s).2.2.elim (a.next s).2.1 fun _ => (a.next s).2.1.enter))
      (ha' : w'.agenda? i = (a.next s).1) :
      View w i w' .proceed ((a.next s).2.2.elim .done (.notice i))
  | leave (s : Site κ) (hs : w.site? i = some s) (hs' : w'.site? i = some s.leave)
      (ha : w'.agenda? i = w.agenda? i) : View w i w' .leave .done

lemma site?_put {w : Moment κ} {i : Nat} {s : Site κ} (hs : w.site? i = some s) (t : Site κ) :
    (w.put i t).site? i = some t := by
  have hlt := lt_of_manager? (manager?_of_site? hs)
  rw [site?_eq_some_iff]
  exact ⟨(manager?_put hlt t i).trans (if_pos rfl), rfl, rfl⟩

lemma put_self {w : Moment κ} {i : Nat} {s : Site κ} (hs : w.site? i = some s) : w.put i s = w := by
  obtain ⟨hm, hn, hj⟩ := (w.site?_eq_some_iff i s).mp hs
  obtain ⟨hlt, he⟩ := List.getElem?_eq_some_iff.mp ((w.manager?_eq_some_iff i _).mp hm)
  have hself := List.set_getElem_self hlt
  rw [he] at hself
  rw [put, hself, ← hn, ← hj]

lemma manager?_put_of_ne (w : Moment κ) {i j : Nat} (hij : i ≠ j) (s : Site κ) :
    (w.put i s).manager? j = w.manager? j := by
  simp only [manager?, put, List.getElem?_set, if_neg hij]

lemma proceed_eq (w : Moment κ) (i : Nat) (a : Agenda) (fs : List (Frame κ)) (s : Site κ) :
    w.proceed i a fs s = ((a.next s).2.2.elim .done (.notice i), w.during i
      ((a.next s).2.2.elim (a.next s).2.1 fun _ => (a.next s).2.1.enter)
      ((a.next s).1.elim fs fun b => ⟨i, b, (a.next s).2.2⟩ :: fs)) := by
  rw [proceed]
  cases a with
  | flush => rfl
  | events es =>
    cases es with
    | nil => rfl
    | cons e es =>
      simp only [Agenda.next]
      rcases s.handle e with ⟨s', _ | n⟩ <;> rfl
  | ends hs =>
    cases hs with
    | nil =>
      simp only [Agenda.next]
      rcases s.offerPending with ⟨s', _ | n⟩ <;> rfl
    | cons h hs =>
      simp only [Agenda.next]
      rcases s.deliverEnd h with ⟨s', _ | n⟩ <;> rfl

lemma agenda?_during_of_ne {w : Moment κ} {i j : Nat} {a : Agenda} {n n' : Option (Notice κ)}
    {fs : List (Frame κ)} (hw : w.frames = ⟨i, a, n⟩ :: fs) (hij : i ≠ j) (b : Option Agenda)
    (s : Site κ) :
    (w.during i s (b.elim fs fun b => ⟨i, b, n'⟩ :: fs)).agenda? j = w.agenda? j := by
  rw [agenda?_cons hw j, if_neg hij]
  cases b with
  | none => rfl
  | some b => exact (agenda?_cons (w := w.during i s (⟨i, b, n'⟩ :: fs)) rfl j).trans (if_neg hij)

lemma manager?_create (w : Moment κ) (o : Options) (j : Nat) : (w.create o).manager? j =
    if w.managers.length = j then some (Manager.create o w.ports).1 else w.manager? j := by
  split
  · next hj =>
    subst hj
    simp [manager?, Moment.create]
  · next hj =>
    rcases Nat.lt_or_gt_of_ne hj with hlt | hlt
    · have h₁ : (w.managers ++ [some (Manager.create o w.ports).1])[j]? = none :=
        List.getElem?_eq_none (by simp; omega)
      have h₂ : w.managers[j]? = none := List.getElem?_eq_none (Nat.le_of_lt hlt)
      simp [manager?, Moment.create, h₁, h₂]
    · simp [manager?, Moment.create, List.getElem?_append_left hlt]

lemma Step.view {w w' : Moment κ} {mv : Move κ} {o : Outcome κ} (hw : w.Orderly)
    (h : Step w mv o w') (i : Nat) : View w i w' mv o := by
  cases h with
  | network a hact => exact .apart _ _ rfl rfl nofun nofun nofun nofun
  | note n hact => exact .apart _ _ rfl rfl nofun nofun nofun nofun
  | call j c s hact hs =>
    by_cases hij : j = i
    · subst hij
      exact .call c s hs (site?_put hs _) rfl
    · refine .apart _ _ (manager?_put_of_ne w hij _) rfl nofun ?_ nofun nofun
      rintro d he
      cases he
      exact hij rfl
  | create o hact =>
    have hm := manager?_create w o i
    by_cases hi : w.managers.length = i
    · rw [if_pos hi] at hm
      refine .born o hi hm (agenda?_eq_none ((inTurn_eq_false_iff w i).mpr fun hmem => ?_))
      obtain ⟨f, hf, hfi⟩ := List.mem_map.mp hmem
      have := hw.known f hf
      omega
    · exact .apart _ _ (hm.trans (if_neg hi)) rfl nofun nofun nofun nofun
  | release j s hact hj hs =>
    by_cases hij : j = i
    · subst hij
      exact .gone ((manager?_release hs j).trans (if_pos rfl)) (agenda?_eq_none hj)
        (agenda?_eq_none hj)
    · refine .apart _ _ ((manager?_release hs i).trans (if_neg hij)) rfl nofun nofun nofun ?_
      intro he
      cases he
      exact hij rfl
  | begin j s hact hj hs =>
    have hframes : (w.begin j s).frames = ⟨j, .events s.begin.1, none⟩ :: w.frames := rfl
    by_cases hij : j = i
    · subst hij
      exact .begin s hs (site?_put hs s.begin.2) (agenda?_eq_none hj)
        ((agenda?_cons hframes j).trans (if_pos rfl))
    · refine .apart _ _ ((manager?_begin hs i).trans (if_neg hij))
        ((agenda?_cons hframes i).trans (if_neg hij)) nofun nofun ?_ nofun
      intro he
      cases he
      exact hij rfl
  | proceed j a fs s hf hs =>
    rw [proceed_eq]
    by_cases hij : j = i
    · subst hij
      refine .job a s hs ((agenda?_cons hf j).trans (if_pos rfl)) (site?_put hs _) ?_
      cases hb : (a.next s).1 with
      | some b => exact (agenda?_cons rfl j).trans (if_pos rfl)
      | none =>
        -- The turn is over, and the manager was in no other one.
        have hn := hw.turns
        rw [hf, List.map_cons, List.nodup_cons] at hn
        apply agenda?_eq_none
        rw [inTurn_eq_false_iff]
        exact hn.1
    · refine .apart _ _ (manager?_put_of_ne w hij _) (agenda?_during_of_ne hf hij _ _) ?_ nofun nofun
        nofun
      intro n he
      cases hn : (a.next s).2.2 with
      | none => rw [hn] at he; cases he
      | some n' =>
        rw [hn] at he
        cases he
        exact hij rfl
  | leave j a n fs s hf hs =>
    by_cases hij : j = i
    · subst hij
      refine .leave s hs (site?_put hs _) ?_
      exact ((agenda?_cons rfl j).trans (if_pos rfl)).trans ((agenda?_cons hf j).trans (if_pos rfl)).symm
    · exact .apart _ _ (manager?_put_of_ne w hij _) (agenda?_during_of_ne hf hij (some a) _) nofun nofun
        nofun nofun

/-! ### One stream -/

/-- Whether the consumer armed or closed the stream under `h` of manager `i`. -/
def settles (i : Nat) (h : Handle) : Move κ × Outcome κ → Bool
  | (.call k c, _) => k = i && c.settles h
  | _ => false

/-- Whether a callback was told of the stream under `h` of manager `i`. -/
def notifies (i : Nat) (h : Handle) : Move κ × Outcome κ → Bool
  | (_, .notice k (.event _ g _)) => k = i && g = h
  | _ => false

lemma notifies_eq_true_iff {i : Nat} {h : Handle} {mv : Move κ} {o : Outcome κ} :
    notifies i h (mv, o) = true ↔ ∃ cb e, o = .notice i (.event cb h e) := by
  constructor
  · intro hn
    rw [notifies.eq_def] at hn
    split at hn
    · next k cb g e he =>
      cases he
      simp only [Bool.and_eq_true, decide_eq_true_eq] at hn
      obtain ⟨rfl, rfl⟩ := hn
      exact ⟨cb, e, rfl⟩
    · cases hn
  · rintro ⟨cb, e, rfl⟩
    simp [notifies]

lemma settles_eq_true_iff {i : Nat} {h : Handle} {mv : Move κ} {o : Outcome κ} :
    settles i h (mv, o) = true ↔ ∃ c, mv = .call i c ∧ c.settles h = true := by
  cases mv with
  | call k c =>
    simp only [settles, Bool.and_eq_true, decide_eq_true_eq, Move.call.injEq]
    constructor
    · rintro ⟨rfl, hc⟩
      exact ⟨c, ⟨rfl, rfl⟩, hc⟩
    · rintro ⟨d, ⟨rfl, rfl⟩, hc⟩
      exact ⟨rfl, hc⟩
  | _ => simp [settles]

lemma claimed?_eq_some_iff {i : Nat} {h : Handle} {mv : Move κ} {o : Outcome κ} :
    claimed? i (mv, o) = some h ↔ mv = .call i .accept ∧ o = .call (.claimed (some h)) := by
  constructor
  · intro he
    rw [claimed?.eq_def] at he
    split at he
    · next k g hk =>
      cases hk
      split at he
      · next hk =>
        subst hk
        subst he
        exact ⟨rfl, rfl⟩
      · cases he
    · cases he
  · rintro ⟨rfl, rfl⟩
    exact if_pos rfl

/-- How a move with its outcome treats the stream under `h` of manager `i`. -/
inductive Brings (s : Site κ) (i : Nat) (h : Handle) : Move κ → Outcome κ → Treatment κ → Prop where
  | spare (mv : Move κ) (o : Outcome κ)
      (hs : settles i h (mv, o) = true → s.manager.streams.get? h = none)
      (hn : notifies i h (mv, o) = false) (hc : claimed? i (mv, o) ≠ some h) (hb : mv ≠ .begin i) :
      Brings s i h mv o .spare
  | touch (k : Nat) (reply : Call.Reply) : Brings s i h (.call i (.read h k)) (.call reply) .touch
  | claim : Brings s i h (.call i .accept) (.call (.claimed (some h))) .claim
  | arm (want : Interests) (callback : Option κ) :
      Brings s i h (.call i (.arm h want callback)) (.call (.armed (.ok ()))) (.arm want callback)
  | dismiss (want : Interests) (callback : Option κ) :
      Brings s i h (.call i (.arm h want callback)) (.call (.armed (.ok ()))) .free
  | close : Brings s i h (.call i (.close h)) (.call .done) .free
  | notify (cb : κ) (e : StreamEvent) :
      Brings s i h .proceed (.notice i (.event cb h e)) (.notify cb e)
  | postpone (r : Stream κ) (hr : s.manager.streams.get? h = some r)
      (ht : r.notifiedTurn = some s.manager.turns) : Brings s i h .proceed .done .postpone
  | lose : Brings s i h .proceed .done .lose
  | free (r : Stream κ) (hr : s.manager.streams.get? h = some r) (hc : r.socket ≠ none) :
      Brings s i h .proceed .done .free

/-- A step as the stream under `h` of manager `i` sees it. -/
inductive Passage (w : Moment κ) (i : Nat) (h : Handle) (w' : Moment κ) :
    Move κ → Outcome κ → Prop where
  | away (mv : Move κ) (o : Outcome κ) (hm : w.manager? i = none) (hm' : w'.manager? i = none)
      (ho : ∀ n, o ≠ .notice i n) (hc : ∀ c, mv ≠ .call i c) : Passage w i h w' mv o
  | gone (hm : w'.manager? i = none) (ha : w.agenda? i = none) : Passage w i h w' (.release i) .done
  | born (p : Options) (m : Manager κ) (hi : w.managers.length = i) (hm : w'.manager? i = some m)
      (hs : m.streams = .empty) (he : m.ending = []) (ha : w'.agenda? i = none) :
      Passage w i h w' (.create p) .done
  | begun (s : Site κ) (hs : w.site? i = some s) (hs' : w'.site? i = some s.begin.2)
      (ha : w.agenda? i = none) (ha' : w'.agenda? i = some (.events s.begin.1)) :
      Passage w i h w' (.begin i) .done
  | taken (s : Site κ) (hs : w.site? i = some s) (hs' : w'.site? i = some s.takeEnding.2)
      (ha : w.agenda? i = some (.events [])) (ha' : w'.agenda? i = some (.ends s.manager.ending)) :
      Passage w i h w' .proceed .done
  | treated (mv : Move κ) (o : Outcome κ) (s s' : Site κ) (t : Treatment κ)
      (hs : w.site? i = some s) (hs' : w'.site? i = some s') (ht : Site.Treats h t s s')
      (hb : Brings s i h mv o t) (ha : w'.agenda? i = w.agenda? i ∧ (mv = .proceed → t = .spare) ∨
        ∃ a n, a ≠ .events [] ∧ w.agenda? i = some a ∧ w'.agenda? i = a.rest ∧ a.Brings s h n t) :
      Passage w i h w' mv o

lemma brings_of_call {s : Site κ} {c : Call Handle κ} {reply : Call.Reply} {h : Handle}
    {t : Treatment κ} (hb : c.Brings s h reply t) (i : Nat) :
    Brings s i h (.call i c) (.call reply) t := by
  cases hb with
  | spare c reply hc hr =>
    refine .spare _ _ ?_ rfl ?_ nofun
    · simpa [settles] using hc
    · intro he
      exact hr (Outcome.call.inj (claimed?_eq_some_iff.mp he).2)
  | touch k reply => exact .touch k reply
  | claim => exact .claim
  | arm want callback => exact .arm want callback
  | dismiss want callback => exact .dismiss want callback
  | close => exact .close

lemma brings_of_agenda {s : Site κ} {a : Agenda} {n : Option (Notice κ)} {h : Handle}
    {t : Treatment κ} (hb : a.Brings s h n t) (i : Nat) :
    Brings s i h .proceed (n.elim .done (.notice i)) t := by
  cases hb with
  | spare a n hn hm =>
    refine .spare _ _ nofun (Bool.eq_false_iff.mpr fun he => ?_) nofun nofun
    obtain ⟨cb, e, ho⟩ := notifies_eq_true_iff.mp he
    cases n with
    | none => cases ho
    | some n =>
      cases ho
      exact hn cb e rfl
  | notify a cb e => exact .notify cb e
  | postpone hs r hr ht => exact .postpone r hr ht
  | lose e es r c abortive hr hc he => exact .lose
  | free e es r c abortive hr hc he hi => exact .free r hr (by simp [hc])

lemma Step.passage {w w' : Moment κ} {mv : Move κ} {o : Outcome κ} (hw : w.Orderly)
    (hstep : Step w mv o w') (i : Nat) (h : Handle) : Passage w i h w' mv o := by
  cases hstep.view hw i with
  | apart mv o hm ha hn hc hb hr =>
    cases hm' : w.manager? i with
    | none => exact .away mv o hm' (hm.trans hm') hn hc
    | some m =>
      have hspare : Brings ⟨w.network, m, w.journal⟩ i h mv o .spare := by
        refine .spare mv o (fun he => ?_) (Bool.eq_false_iff.mpr fun he => ?_) (fun he => ?_) hb
        · obtain ⟨c, rfl, -⟩ := settles_eq_true_iff.mp he
          exact absurd rfl (hc c)
        · obtain ⟨cb, e, ho⟩ := notifies_eq_true_iff.mp he
          exact hn _ ho
        · exact hc .accept (claimed?_eq_some_iff.mp he).1
      have hq : Site.Quiet ⟨w.network, m, w.journal⟩ ⟨w'.network, m, w'.journal⟩ := ⟨rfl, rfl, rfl⟩
      exact .treated mv o _ _ .spare ((w.site?_eq_some_iff i _).mpr ⟨hm', rfl, rfl⟩)
        ((w'.site?_eq_some_iff i _).mpr ⟨hm.trans hm', rfl, rfl⟩) (hq.treats h) hspare
        (.inl ⟨ha, fun _ => rfl⟩)
  | born o hi hm ha => exact .born o _ hi hm rfl rfl ha
  | gone hm ha ha' => exact .gone hm ha
  | begin s hs hs' ha ha' => exact .begun s hs hs' ha ha'
  | call c s hs hs' ha =>
    obtain ⟨t, hb, ht⟩ := c.treats (hw.coherent_site hs).arena h
    exact .treated _ _ s _ t hs hs' ht (brings_of_call hb i) (.inl ⟨ha, nofun⟩)
  | job a s hs ha hs' ha' =>
    by_cases hnil : a = .events []
    · subst hnil
      exact .taken s hs hs' ha ha'
    · obtain ⟨t, hb, ht⟩ := Agenda.treats (hw.coherent_site hs) hnil h
      rw [Agenda.next_eq_rest s hnil] at ha'
      have hq := (a.next s).2.1.quiet_called (a.next s).2.2
      exact .treated _ _ s _ t hs hs' (ht.trans_quiet hq) (brings_of_agenda hb i)
        (.inr ⟨a, _, hnil, ha, ha', hb⟩)
  | leave s hs hs' ha =>
    exact .treated _ _ s _ .spare hs hs' (s.quiet_leave.treats h) (.spare _ _ nofun rfl nofun nofun)
      (.inl ⟨ha, nofun⟩)

/-- A manager keeps the options that it was created with. -/
lemma Reaches.options {w w' : Moment κ} (h : w.Reaches w') (hw : w.Orderly) {i : Nat}
    {m m' : Manager κ} (hm : w.manager? i = some m) (hm' : w'.manager? i = some m') :
    m'.options = m.options := by
  obtain ⟨mvs, es, hr⟩ := h
  refine (run_invariant (P := fun _ w => w.Orderly ∧ i < w.managers.length ∧
    ∀ m', w.manager? i = some m' → m'.options = m.options) (fun _ w mv o w' hw hs => ?_)
    ⟨hw, lt_of_manager? hm, fun m' hm' => ?_⟩ hr).2.2 m' hm'
  · obtain ⟨horderly, hlt, hsame⟩ := hw
    have hst := (step_cases hs).stage horderly
    exact ⟨hst.orderly horderly, Nat.lt_of_lt_of_le hlt (step_cases hs).length_le,
      (hst.fate horderly i).options hlt hsame⟩
  · rw [hm] at hm'
    cases hm'
    rfl

end Moment

end BoundedStreams
