import BoundedStreams.Proofs.Levels
import BoundedStreams.Scenario

/-! The turns and scenarios of the program are runs: a whole turn, with a consumer that acts on its own
site only, is a sequence of moves, and so is every scenario. What holds at every moment of a run holds
after every step of a scenario. -/

namespace BoundedStreams

namespace Site

variable {κ σ : Type}

/-- What an answer to a notice can make of the site. -/
inductive Acts (s : Site κ) : Site κ → Prop where
  | refl : Acts s s
  | network {t : Site κ} (a : Network.Action) (h : Acts s t) :
      Acts s { t with network := (t.network.perform a).2 }
  | call {t : Site κ} (c : Call Handle κ) (h : Acts s t) : Acts s (c.perform t).2
  | note {t : Site κ} (n : Note) (h : Acts s t) : Acts s (t.note n)

lemma Acts.trans {s t u : Site κ} (h : Acts s t) (h' : Acts t u) : Acts s u := by
  induction h' with
  | refl => exact h
  | network a _ ih => exact .network a ih
  | call c _ ih => exact .call c ih
  | note n _ ih => exact .note n ih

/-- What an answer can make of the site that uses no other stream than the one under `g`. -/
inductive Tends (g : Handle) (s : Site κ) : Site κ → Prop where
  | refl : Tends g s s
  | call {t : Site κ} (c : Call Handle κ) (hc : c.uses g = true) (h : Tends g s t) :
      Tends g s (c.perform t).2
  | note {t : Site κ} (n : Note) (h : Tends g s t) : Tends g s (t.note n)

lemma Tends.trans {g : Handle} {s t u : Site κ} (h : Tends g s t) (h' : Tends g t u) :
    Tends g s u := by
  induction h' with
  | refl => exact h
  | call c hc _ ih => exact .call c hc ih
  | note n _ ih => exact .note n ih

lemma Tends.acts {g : Handle} {s t : Site κ} (h : Tends g s t) : Acts s t := by
  induction h with
  | refl => exact .refl
  | call c _ _ ih => exact .call c ih
  | note n _ ih => exact .note n ih

/-- The consumer answers by calls, notes and actions of the network. -/
def Plain (consumer : Consumer κ σ) : Prop := ∀ n w, Acts w.1 (consumer n w).1

/-- What each job keeps together with the answer to its notice holds when all jobs of a turn are done. -/
lemma turn_jobs {consumer : Consumer κ σ} {I : Agenda → Site κ × σ → Prop}
    (hserve : ∀ (a b : Agenda) (job : Site κ → Site κ × Option (Notice κ)) (p : Site κ × σ), I a p →
      a.next p.1 = (some b, job p.1) → I b (serve consumer job p))
    {s : Site κ} {memory : σ} (h : I (.events s.begin.1) (s.begin.2, memory)) :
    ∃ p, I .flush p ∧ turn consumer (s, memory) = (p.1.flush, p.2) := by
  have hevents : ∀ (es : List SocketEvent) (p : Site κ × σ), I (.events es) p →
      I (.events []) (es.foldl (fun p e => serve consumer (·.handle e) p) p) := by
    intro es
    induction es with
    | nil => exact fun _ h => h
    | cons e es ih => exact fun p h => ih _ (hserve _ _ (·.handle e) p h rfl)
  have hends : ∀ (hs : List Handle) (p : Site κ × σ), I (.ends hs) p →
      I (.ends []) (hs.foldl (fun p h => serve consumer (·.deliverEnd h) p) p) := by
    intro hs
    induction hs with
    | nil => exact fun _ h => h
    | cons g hs ih => exact fun p h => ih _ (hserve _ _ (·.deliverEnd g) p h rfl)
  have h₁ := hevents _ _ h
  have h₂ := hserve _ _ (fun s => (s.takeEnding.2, none)) _ h₁ rfl
  have h₃ := hends _ _ h₂
  exact ⟨_, hserve _ _ offerPending _ h₃ rfl, rfl⟩

end Site

namespace Moment

variable {κ σ : Type}

lemma site?_during {w : Moment κ} {i : Nat} (hi : i < w.managers.length) (s : Site κ)
    (fs : List (Frame κ)) : (w.during i s fs).site? i = some s := by
  rw [site?_eq_some_iff]
  exact ⟨(manager?_put hi s i).trans (if_pos rfl), rfl, rfl⟩

lemma during_during (w : Moment κ) (i : Nat) (s t : Site κ) (fs gs : List (Frame κ)) :
    (w.during i s fs).during i t gs = w.during i t gs := by
  simp [during, put]

lemma put_during (w : Moment κ) (i : Nat) (s t : Site κ) (fs : List (Frame κ)) :
    (w.during i s fs).put i t = w.during i t fs := by
  simp [during, put]

/-! ### A turn -/

section Turns

variable {w : Moment κ} {i : Nat} (hi : i < w.managers.length) (fs : List (Frame κ))

include hi

lemma reaches_acts {s t : Site κ} (h : s.Acts t) (a : Agenda) (n : Notice κ) :
    (w.during i s (⟨i, a, some n⟩ :: fs)).Reaches (w.during i t (⟨i, a, some n⟩ :: fs)) := by
  induction h with
  | refl => exact .refl _
  | network b _ ih => exact ih.trans (.step _ _ (step_network rfl b))
  | @call t c _ ih =>
    have hstep := step_call (w := w.during i t (⟨i, a, some n⟩ :: fs)) rfl (site?_during hi _ _) c
    rw [put_during] at hstep
    exact ih.trans (.step _ _ hstep)
  | note n' _ ih => exact ih.trans (.step (.note n') .done rfl)

lemma reaches_serve {consumer : Consumer κ σ} (hp : Site.Plain consumer) {agenda a : Agenda}
    (job : Site κ → Site κ × Option (Notice κ)) (p : Site κ × σ)
    (hjob : agenda.next p.1 = (some a, job p.1)) :
    (w.during i p.1 (⟨i, agenda, none⟩ :: fs)).Reaches
      (w.during i (Site.serve consumer job p).1 (⟨i, a, none⟩ :: fs)) := by
  have hstep := step_proceed (w := w.during i p.1 (⟨i, agenda, none⟩ :: fs)) rfl
    (site?_during hi p.1 _)
  rw [proceed] at hstep
  rw [Site.serve]
  -- With a notice the job, the answer and the return are three stretches of the run.
  rcases hj : job p.1 with ⟨t, _ | n⟩
  · rw [hjob, hj] at hstep
    refine .step .proceed .done (hstep.trans ?_)
    simp only [during_during]
  · rw [hjob, hj] at hstep
    have hcall : (w.during i p.1 (⟨i, agenda, none⟩ :: fs)).Reaches
        (w.during i t.enter (⟨i, a, some n⟩ :: fs)) := by
      refine .step .proceed (.notice i n) (hstep.trans ?_)
      simp only [during_during]
    have hacts := reaches_acts hi fs (hp n (t.enter, p.2)) a n
    refine (hcall.trans hacts).trans (.step .leave .done ((step_leave rfl
      (site?_during hi _ _)).trans ?_))
    rw [during_during]

lemma reaches_flush (s : Site κ) :
    (w.during i s (⟨i, .flush, none⟩ :: fs)).Reaches (w.during i s.flush fs) := by
  have hstep := step_proceed (w := w.during i s (⟨i, .flush, none⟩ :: fs)) rfl (site?_during hi s _)
  refine .step .proceed .done (hstep.trans ?_)
  simp only [proceed, Agenda.next, during_during]

end Turns

/-- A turn is a run from its start to its end, through every moment of its callbacks. -/
theorem reaches_turn {consumer : Consumer κ σ} (hp : Site.Plain consumer) {w : Moment κ} {i : Nat}
    {s : Site κ} (hs : w.site? i = some s) (hact : w.mayAct = true) (hturn : w.inTurn i = false)
    (memory : σ) : w.Reaches (w.put i (Site.turn consumer (s, memory)).1) := by
  have hi := lt_of_manager? (manager?_of_site? hs)
  have hbegin : w.Reaches (w.during i s.begin.2 (⟨i, .events s.begin.1, none⟩ :: w.frames)) := by
    apply Reaches.step (.begin i) .done
    simp only [step, hact, hturn, Bool.not_false, Bool.and_true, if_true, hs, Option.map_some]
    rfl
  obtain ⟨p, hjobs, he⟩ := Site.turn_jobs
    (I := fun a p => w.Reaches (w.during i p.1 (⟨i, a, none⟩ :: w.frames)))
    (fun a b job p h hnext => h.trans (reaches_serve hi w.frames hp job p hnext)) hbegin
  rw [he]
  exact hjobs.trans (reaches_flush hi w.frames p.1)

end Moment

/-! ### Consumers -/

namespace Echo

variable {κ : Type}

lemma tends_close (h : Handle) (s : Site κ) : s.Tends h (s.close h) :=
  .call (.close h) (by simp [Call.uses]) .refl

lemma tends_arm (h : Handle) (want : Interests) (callback : Option κ) (s : Site κ) :
    s.Tends h (s.arm h want callback).2 := .call (.arm h want callback) (by simp [Call.uses]) .refl

lemma tends_endSession (h : Handle) (w : Site κ × Echo) : w.1.Tends h (endSession h w).1 :=
  .note (.sessionEnded h) (tends_close h w.1)

lemma acts_onOffer (self : κ) (w : Site κ × Echo) : w.1.Acts (onOffer self w).1 := by
  have ha : w.1.Acts w.1.accept.2 := .call .accept .refl
  rw [onOffer]
  split
  · next s hs => rwa [hs] at ha
  · next h s hs =>
    rw [hs] at ha
    have harm : w.1.Acts ((s.note (.sessionStarted h)).arm h .read (some self)).2 :=
      .call (.arm h .read (some self)) (.note (.sessionStarted h) ha)
    dsimp only
    split
    · next t ht => rwa [ht] at harm
    · next cause t ht =>
      rw [ht] at harm
      exact Site.Acts.trans (.note (.sessionUnarmed h cause) harm) (tends_endSession h (_, _)).acts

lemma tends_send (s : Site κ) (h : Handle) (bytes : Bytes) : s.Tends h (send s h bytes).2 := by
  have hw : s.Tends h (s.write h bytes).2 := .call (.write h bytes) (by simp [Call.uses]) .refl
  rw [send]
  split <;> next heq => rwa [heq] at hw

lemma tends_onReadable (h : Handle) (w : Site κ × Echo) : w.1.Tends h (onReadable h w).2.1 := by
  have hread : w.1.Tends h (w.1.read h chunk).2 := .call (.read h chunk) (by simp [Call.uses]) .refl
  rw [onReadable]
  split
  · next s heq =>
    rw [heq] at hread
    exact .note (.sessionFinished h) hread
  · next s heq => rwa [heq] at hread
  · next s _ heq => rwa [heq] at hread
  · next bytes s _ heq =>
    rw [heq] at hread
    have hsend := hread.trans (tends_send s h bytes)
    split
    · next t ht => rwa [ht] at hsend
    · next n t ht =>
      rw [ht] at hsend
      dsimp only
      split <;> exact hsend

lemma tends_onWritable (h : Handle) (w : Site κ × Echo) : w.1.Tends h (onWritable h w).2.1 := by
  rw [onWritable]
  split
  · exact .refl
  · exact .refl
  · next bytes _ _ =>
    have hsend := tends_send w.1 h bytes
    split <;> next heq => rwa [heq] at hsend

/-- What comes after the answer to an event: the stream waits for the next one, or the session is
over. -/
def settle (self : κ) (h : Handle) (r : Option Interests × Site κ × Echo) : Site κ × Echo :=
  match r.1 with
  | none => endSession h r.2
  | some want =>
    match r.2.1.arm h want (some self) with
    | (.ok (), s) => (s, r.2.2)
    | (.error _, s) => endSession h (s, r.2.2)

lemma onEvent_readable (self : κ) (h : Handle) (w : Site κ × Echo) :
    onEvent self h .readable w = settle self h (onReadable h w) := rfl

lemma onEvent_writable (self : κ) (h : Handle) (w : Site κ × Echo) :
    onEvent self h .writable w = settle self h (onWritable h w) := rfl

lemma tends_settle (self : κ) (h : Handle) (r : Option Interests × Site κ × Echo) :
    r.2.1.Tends h (settle self h r).1 := by
  obtain ⟨next, s, echo⟩ := r
  cases next with
  | none => exact tends_endSession h (s, echo)
  | some want =>
    have harm := tends_arm h want (some self) s
    rw [settle]
    dsimp only
    split
    · next t ht => rwa [ht] at harm
    · next t ht =>
      rw [ht] at harm
      exact harm.trans (tends_endSession h (_, _))

/-- The service answers an event by calls that use the stream of the event. -/
lemma tends_onEvent (self : κ) (h : Handle) (e : StreamEvent) (w : Site κ × Echo) :
    w.1.Tends h (onEvent self h e w).1 := by
  cases e with
  | readable =>
    rw [onEvent_readable]
    exact (tends_onReadable h w).trans (tends_settle self h _)
  | writable =>
    rw [onEvent_writable]
    exact (tends_onWritable h w).trans (tends_settle self h _)

lemma plain_consumer (self : κ) : Site.Plain (consumer self) := by
  intro n w
  cases n with
  | offer _ => exact acts_onOffer self w
  | event _ h e => exact (tends_onEvent self h e w).acts

lemma reaches_attach {w : Moment κ} (hact : w.mayAct = true) {i : Nat} {s : Site κ}
    (hs : w.site? i = some s) (self : κ) : w.Reaches (w.put i (attach self s).2) := by
  have hi := Moment.lt_of_manager? (Moment.manager?_of_site? hs)
  have hopen := Moment.Reaches.step _ _ (Moment.step_call hact hs (.openListener self))
  simp only [Call.perform] at hopen
  rw [attach]
  rcases ho : s.openListener self with ⟨_ | ⟨⟩, t⟩
  · rw [ho] at hopen
    exact hopen
  · rw [ho] at hopen
    exact hopen.trans (.step (.note (.echoAttached t.manager.port)) .done (if_pos hact))

end Echo

namespace Scenario

lemma acts_act (self : Option Handle) (p : Place) (a : Action) : p.1.Acts (act self p a).2.1 := by
  cases a with
  | network a => exact .network a .refl
  | call c =>
    simp only [act]
    split
    · exact .refl
    · next c _ => exact .call c .refl

lemma acts_actAll (self : Option Handle) (as : List Action) (p : Place) :
    p.1.Acts (actAll self as p).2.1 := by
  induction as generalizing p with
  | nil => exact .refl
  | cons a as ih => exact (acts_act self p a).trans (ih _)

lemma plain_consumer (scripts : Scripts) (i : Nat) : Site.Plain (consumer scripts i) := by
  have hscript : ∀ name self entry (p : Place), p.1.Acts (runScript scripts name self entry p).1 :=
    fun name self entry p =>
      acts_actAll self (p.2.nextScript scripts name).1 (p.1, (p.2.nextScript scripts name).2)
  have hservice : ∀ number n (p : Place), p.1.Acts (runService i number n p).1 := by
    intro number n p
    rw [runService]
    split
    · exact .refl
    · next echo _ =>
      have h := Echo.plain_consumer (.echo number) n (p.1, echo)
      generalize Echo.consumer (.echo number) n (p.1, echo) = r at h ⊢
      exact h
  intro n p
  rcases n with ⟨name | number⟩ | ⟨name | number, h, e⟩
  · exact hscript name none _ p
  · exact hservice number _ p
  · exact hscript name (some h) _ p
  · exact hservice number _ p

/-! ### Scenarios -/

/-- What a world is but for the memory of its consumers. -/
def World.moment (w : World) : Moment Callback := ⟨w.network, w.managers, w.journal, w.ports, []⟩

lemma site?_of_place? {w : World} {i : Nat} {p : Place} (h : w.place? i = some p) :
    w.moment.site? i = some p.1 := by
  obtain ⟨m, hm, rfl⟩ := Option.map_eq_some_iff.mp h
  exact Option.map_eq_some_iff.mpr ⟨m, hm, rfl⟩

lemma put_put (w : Moment Callback) (i : Nat) (s t : Site Callback) :
    (w.put i s).put i t = w.put i t := by
  simp [Moment.put]

lemma reaches_turns (scripts : Scripts) (pause : Option Nat) {w : Moment Callback} {i : Nat}
    (hi : i < w.managers.length) (hf : w.frames = []) (n : Nat) (p : Place) :
    (w.put i p.1).Reaches (w.put i (turns (consumer scripts i) pause n p).1) := by
  have hone : ∀ p : Place, (w.put i p.1).Reaches (w.put i (Site.turn (consumer scripts i) p).1) := by
    intro p
    have hs : (w.put i p.1).site? i = some p.1 := Moment.site?_during hi p.1 w.frames
    have hact : (w.put i p.1).mayAct = true := by simp [Moment.mayAct, Moment.put, hf]
    have hout : (w.put i p.1).inTurn i = false := by simp [Moment.inTurn, Moment.put, hf]
    have hturn := Moment.reaches_turn (plain_consumer scripts i) hs hact hout p.2
    rwa [put_put] at hturn
  induction n generalizing p with
  | zero => exact .refl _
  | succ n ih =>
    cases n with
    | zero => exact hone p
    | succ n =>
      refine ((hone p).trans ?_).trans (ih _)
      cases pause with
      | none => exact .refl _
      | some d =>
        exact .step _ _ (Moment.step_network (by simp [Moment.mayAct, Moment.put, hf]) (.advance d))

lemma put_site {w : Moment Callback} {i : Nat} {s : Site Callback} (hs : w.site? i = some s) :
    w.put i s = w := by
  obtain ⟨hm, hn, hj⟩ := (w.site?_eq_some_iff i s).mp hs
  rw [Moment.manager?_eq_some_iff] at hm
  obtain ⟨hi, he⟩ := List.getElem?_eq_some_iff.mp hm
  rw [Moment.put, ← hn, ← hj, ← he, List.set_getElem_self]

lemma reaches_act {w : Moment Callback} (hact : w.mayAct = true) {i : Nat} {p : Place}
    (hs : w.site? i = some p.1) (c : Call StreamRef String) :
    w.Reaches (w.put i (act none p (.call c)).2.1) := by
  simp only [act]
  split
  · rw [put_site hs]
    exact .refl _
  · next c _ => exact .step _ _ (Moment.step_call hact hs c)

lemma reaches_perform (scripts : Scripts) (w : World) (i : Nat) (d : Deed) :
    w.moment.Reaches (w.perform scripts i d).2.moment := by
  have hact : w.moment.mayAct = true := rfl
  have hsite : ∀ f : Place → Answer × Place,
      (∀ p, w.place? i = some p → w.moment.Reaches (w.moment.put i (f p).2.1)) →
        w.moment.Reaches (w.atSite i f).2.moment := by
    intro f hf
    rw [World.atSite]
    split
    · exact .refl _
    · next p hp => exact hf p hp
  cases d with
  | act a =>
    cases a with
    | network a => exact .step _ _ (Moment.step_network hact a)
    | call c =>
      apply hsite
      intro p hp
      have hs := site?_of_place? hp
      exact reaches_act hact hs c
  | create o => exact .step (.create o) .done rfl
  | turn n pause =>
    apply hsite
    intro p hp
    have hs := site?_of_place? hp
    have hi := Moment.lt_of_manager? ((w.moment.site?_eq_some_iff i p.1).mp hs).1
    have hturns := reaches_turns scripts pause hi rfl n p
    rwa [put_site hs] at hturns
  | attachEcho =>
    apply hsite
    intro p hp
    have hattach := Echo.reaches_attach hact (site?_of_place? hp) (.echo p.2.nextService)
    obtain ⟨s, m⟩ := p
    dsimp only at hattach ⊢
    split <;> next heq => rwa [heq] at hattach
  | echoStats | dropEcho | metrics => exact .refl _
  | release =>
    rw [World.perform, World.release]
    dsimp only
    split
    · exact .refl _
    · next s m hp =>
      apply Moment.Reaches.step (.release i) .done
      simp only [Moment.step, site?_of_place? hp, Option.map_some]
      apply (if_pos rfl).trans
      simp [Moment.release, World.moment, World.restore, Moment.put]

/-- What holds at every moment of a run holds wherever a scenario gets to. -/
theorem reaches_run {scripts : Scripts} {w w' : World} {steps : List Step} {records : List Record}
    (h : run scripts w steps = .finished records w') : w.moment.Reaches w'.moment := by
  induction steps generalizing w records with
  | nil =>
    simp only [run, Outcome.finished.injEq] at h
    exact h.2 ▸ .refl _
  | cons step steps ih =>
    have hone := reaches_perform scripts { w with memory := { w.memory with log := #[] } }
      step.manager step.deed
    simp only [run] at h
    split at h
    · cases h
    · split at h
      · next rs v hv =>
        cases h
        exact hone.trans (ih hv)
      · cases h

end Scenario

end BoundedStreams
