import BoundedStreams.Manager.Call
import BoundedStreams.Network.Action
import Mathlib.Data.List.Nodup

/-! Runs of any number of managers over one network, one move at a time. The states between two moves
are the moments of a run: those between the calls of the program, those between the jobs of a turn and
those that a callback sees while it runs. A callback may do what the program may do, also to other
managers, but not start a turn of a manager that is in one. -/

namespace BoundedStreams

/-- What is left of a turn. The offer comes when no end is left. -/
inductive Agenda where
  | events (es : List SocketEvent)
  | ends (hs : List Handle)
  | flush

namespace Agenda

variable {κ : Type}

def batch : Agenda → List SocketEvent
  | .events es => es
  | .ends _ | .flush => []

/-- The next job of a turn: what is left after it, and the notice that it ends with. -/
def next (s : Site κ) : Agenda → Option Agenda × Site κ × Option (Notice κ)
  | .events [] => let (hs, s) := s.takeEnding; (some (.ends hs), s, none)
  | .events (e :: es) => let (s, n) := s.handle e; (some (.events es), s, n)
  | .ends [] => let (s, n) := s.offerPending; (some .flush, s, n)
  | .ends (h :: hs) => let (s, n) := s.deliverEnd h; (some (.ends hs), s, n)
  | .flush => (none, s.flush, none)

end Agenda

/-- A turn in progress. -/
structure Frame (κ : Type) where
  manager : Nat
  agenda : Agenda
  /-- The notice that a callback is answering. -/
  calling : Option (Notice κ)

structure Moment (κ : Type) where
  network : Network
  managers : List (Option (Manager κ))
  journal : Journal
  ports : PortSource
  /-- The turns in progress, the innermost first. -/
  frames : List (Frame κ)

inductive Move (κ : Type) where
  | network (action : Network.Action)
  | call (manager : Nat) (call : Call Handle κ)
  | note (n : Note)
  | create (options : Options)
  | release (manager : Nat)
  | begin (manager : Nat)
  /-- The innermost turn does its next job. -/
  | proceed
  /-- The callback that is running returns. -/
  | leave

inductive Outcome (κ : Type) where
  | done
  | network (reply : Network.Reply)
  | call (reply : Call.Reply)
  /-- A callback starts to run. -/
  | notice (manager : Nat) (n : Notice κ)

/-- What a turn does, and neither the program nor a callback. -/
def Move.isJob {κ : Type} : Move κ → Bool
  | .proceed => true
  | _ => false

lemma Move.isJob_iff {κ : Type} (mv : Move κ) : mv.isJob = true ↔ mv = .proceed := by
  cases mv <;> simp [isJob]

abbrev History (κ : Type) := List (Move κ × Outcome κ)

namespace Moment

variable {κ : Type}

def initial (ports : PortSource) : Moment κ := ⟨.initial, [], .blank, ports, []⟩

def manager? (w : Moment κ) (i : Nat) : Option (Manager κ) := (w.managers[i]?).join

def site? (w : Moment κ) (i : Nat) : Option (Site κ) :=
  (w.manager? i).map fun m => ⟨w.network, m, w.journal⟩

def put (w : Moment κ) (i : Nat) (s : Site κ) : Moment κ :=
  { w with
    network := s.network
    managers := w.managers.set i (some s.manager)
    journal := s.journal }

/-- The moment with `s` as the site of manager `i` and `fs` as the turns in progress. -/
def during (w : Moment κ) (i : Nat) (s : Site κ) (fs : List (Frame κ)) : Moment κ :=
  { w.put i s with frames := fs }

/-- Whether the program or a callback has the word, and not a turn. -/
def mayAct (w : Moment κ) : Bool := w.frames.head?.all (·.calling.isSome)

def inTurn (w : Moment κ) (i : Nat) : Bool := w.frames.any (·.manager = i)

def create (w : Moment κ) (o : Options) : Moment κ :=
  let (m, ports) := Manager.create o w.ports
  { w with
    managers := w.managers ++ [some m]
    journal := w.journal.note m.creationNote
    ports := ports }

def release (w : Moment κ) (i : Nat) (s : Site κ) : Moment κ :=
  { w.put i s.release with managers := w.managers.set i none }

def begin (w : Moment κ) (i : Nat) (s : Site κ) : Moment κ :=
  let (es, s) := s.begin
  w.during i s (⟨i, .events es, none⟩ :: w.frames)

/-- The next job of the turn of manager `i`, whose frame stands before `frames`. -/
def proceed (w : Moment κ) (i : Nat) (agenda : Agenda) (frames : List (Frame κ)) (s : Site κ) :
    Outcome κ × Moment κ :=
  match agenda.next s with
  | (none, s, _) => (.done, w.during i s frames)
  | (some a, s, none) => (.done, w.during i s (⟨i, a, none⟩ :: frames))
  | (some a, s, some n) => (.notice i n, w.during i s.enter (⟨i, a, some n⟩ :: frames))

/-- The result of a move, if it can be made. -/
def step (w : Moment κ) : Move κ → Option (Outcome κ × Moment κ)
  | .network a =>
    if w.mayAct then
      let (r, n) := w.network.perform a
      some (.network r, { w with network := n })
    else none
  | .call i c =>
    if w.mayAct then
      (w.site? i).map fun s => let (r, s) := c.perform s; (.call r, w.put i s)
    else none
  | .note n => if w.mayAct then some (.done, { w with journal := w.journal.note n }) else none
  | .create o => if w.mayAct then some (.done, w.create o) else none
  | .release i =>
    if w.mayAct && !w.inTurn i then (w.site? i).map fun s => (.done, w.release i s) else none
  | .begin i =>
    if w.mayAct && !w.inTurn i then (w.site? i).map fun s => (.done, w.begin i s) else none
  | .proceed =>
    match w.frames with
    | ⟨i, agenda, none⟩ :: frames => (w.site? i).map fun s => w.proceed i agenda frames s
    | _ => none
  | .leave =>
    match w.frames with
    | ⟨i, agenda, some _⟩ :: frames =>
      (w.site? i).map fun s => (.done, w.during i s.leave (⟨i, agenda, none⟩ :: frames))
    | _ => none

/-- What happens in a run, and the moment at its end. -/
def run (w : Moment κ) : List (Move κ) → Option (History κ × Moment κ)
  | [] => some ([], w)
  | mv :: mvs =>
    (w.step mv).bind fun (o, w) => (run w mvs).map fun (es, w) => ((mv, o) :: es, w)

/-- A manager with room for one stream opens its port, and a peer connects. -/
def arrival : List (Move Unit) :=
  [.create ⟨some 9000, 1, 1, 0, 0, 0, 64, 0⟩, .call 0 (.openListener ()), .network (.connect 9000)]

/-! ### Moves that can be made -/

lemma step_call {w : Moment κ} {i : Nat} {s : Site κ} (hact : w.mayAct = true)
    (hs : w.site? i = some s) (c : Call Handle κ) :
    w.step (.call i c) = some (.call (c.perform s).1, w.put i (c.perform s).2) := by
  simp only [step, hact, if_true, hs, Option.map_some]

lemma step_network {w : Moment κ} (hact : w.mayAct = true) (a : Network.Action) :
    w.step (.network a) =
      some (.network (w.network.perform a).1, { w with network := (w.network.perform a).2 }) := by
  simp only [step, hact, if_true]

lemma step_proceed {w : Moment κ} {i : Nat} {a : Agenda} {fs : List (Frame κ)} {s : Site κ}
    (hf : w.frames = ⟨i, a, none⟩ :: fs) (hs : w.site? i = some s) :
    w.step .proceed = some (w.proceed i a fs s) := by
  simp only [step, hf, hs, Option.map_some]

lemma step_leave {w : Moment κ} {i : Nat} {a : Agenda} {n : Notice κ} {fs : List (Frame κ)}
    {s : Site κ} (hf : w.frames = ⟨i, a, some n⟩ :: fs) (hs : w.site? i = some s) :
    w.step .leave = some (.done, w.during i s.leave (⟨i, a, none⟩ :: fs)) := by
  simp only [step, hf, hs, Option.map_some]

/-! ### Inversion -/

inductive Step (w : Moment κ) : Move κ → Outcome κ → Moment κ → Prop where
  | network (a : Network.Action) (hw : w.mayAct = true) :
      Step w (.network a) (.network (w.network.perform a).1)
        { w with network := (w.network.perform a).2 }
  | call (i : Nat) (c : Call Handle κ) (s : Site κ) (hw : w.mayAct = true) (hs : w.site? i = some s) :
      Step w (.call i c) (.call (c.perform s).1) (w.put i (c.perform s).2)
  | note (n : Note) (hw : w.mayAct = true) :
      Step w (.note n) .done { w with journal := w.journal.note n }
  | create (o : Options) (hw : w.mayAct = true) : Step w (.create o) .done (w.create o)
  | release (i : Nat) (s : Site κ) (hw : w.mayAct = true) (hi : w.inTurn i = false)
      (hs : w.site? i = some s) : Step w (.release i) .done (w.release i s)
  | begin (i : Nat) (s : Site κ) (hw : w.mayAct = true) (hi : w.inTurn i = false)
      (hs : w.site? i = some s) : Step w (.begin i) .done (w.begin i s)
  | proceed (i : Nat) (agenda : Agenda) (frames : List (Frame κ)) (s : Site κ)
      (hw : w.frames = ⟨i, agenda, none⟩ :: frames) (hs : w.site? i = some s) :
      Step w .proceed (w.proceed i agenda frames s).1 (w.proceed i agenda frames s).2
  | leave (i : Nat) (agenda : Agenda) (n : Notice κ) (frames : List (Frame κ)) (s : Site κ)
      (hw : w.frames = ⟨i, agenda, some n⟩ :: frames) (hs : w.site? i = some s) :
      Step w .leave .done (w.during i s.leave (⟨i, agenda, none⟩ :: frames))

lemma step_cases {w w' : Moment κ} {mv : Move κ} {o : Outcome κ} (h : w.step mv = some (o, w')) :
    Step w mv o w' := by
  cases mv with
  | network a =>
    simp only [step] at h
    split at h
    · next hw => cases h; exact .network a hw
    · cases h
  | call i c =>
    simp only [step] at h
    split at h
    · next hw =>
      obtain ⟨s, hs, he⟩ := Option.map_eq_some_iff.mp h
      cases he
      exact .call i c s hw hs
    · cases h
  | note n =>
    simp only [step] at h
    split at h
    · next hw => cases h; exact .note n hw
    · cases h
  | create o =>
    simp only [step] at h
    split at h
    · next hw => cases h; exact .create o hw
    · cases h
  | release i =>
    simp only [step, Bool.and_eq_true, Bool.not_eq_true'] at h
    split at h
    · next hw =>
      obtain ⟨s, hs, he⟩ := Option.map_eq_some_iff.mp h
      cases he
      exact .release i s hw.1 hw.2 hs
    · cases h
  | begin i =>
    simp only [step, Bool.and_eq_true, Bool.not_eq_true'] at h
    split at h
    · next hw =>
      obtain ⟨s, hs, he⟩ := Option.map_eq_some_iff.mp h
      cases he
      exact .begin i s hw.1 hw.2 hs
    · cases h
  | proceed =>
    simp only [step] at h
    split at h
    · next i agenda frames hw =>
      obtain ⟨s, hs, he⟩ := Option.map_eq_some_iff.mp h
      have := Step.proceed i agenda frames s hw hs
      rwa [he] at this
    · cases h
  | leave =>
    simp only [step] at h
    split at h
    · next i agenda n frames hw =>
      obtain ⟨s, hs, he⟩ := Option.map_eq_some_iff.mp h
      cases he
      exact .leave i agenda n frames s hw hs
    · cases h

lemma Step.eq_some {w w' : Moment κ} {mv : Move κ} {o : Outcome κ} (h : Step w mv o w') :
    w.step mv = some (o, w') := by
  cases h with
  | network a hw => exact step_network hw a
  | call i c s hw hs => exact step_call hw hs c
  | note n hw => simp only [step, hw, if_true]
  | create o hw => simp only [step, hw, if_true]
  | release i s hw hi hs | begin i s hw hi hs => simp [step, hw, hi, hs]
  | proceed i agenda frames s hw hs => exact step_proceed hw hs
  | leave i agenda n frames s hw hs => exact step_leave hw hs

/-- A turn has the word or somebody else has it. -/
lemma Step.proceed_iff {w w' : Moment κ} {mv : Move κ} {o : Outcome κ} (h : Step w mv o w') :
    mv = .proceed ↔ w.mayAct = false := by
  cases h with
  | network _ hw | call _ _ _ hw _ | note _ hw | create _ hw | release _ _ hw _ _
  | begin _ _ hw _ _ => simp [hw]
  | proceed i agenda frames s hw hs => simp [mayAct, hw]
  | leave i agenda n frames s hw hs => simp [mayAct, hw]

/-! ### Induction on runs -/

lemma run_single {w w' : Moment κ} {mv : Move κ} {o : Outcome κ} (h : w.step mv = some (o, w')) :
    w.run [mv] = some ([(mv, o)], w') := by
  simp only [run, h, Option.bind_some, Option.map_some]

lemma run_cons {w w' : Moment κ} {mv : Move κ} {mvs : List (Move κ)} {es : History κ}
    (h : w.run (mv :: mvs) = some (es, w')) :
    ∃ o w₁ es', w.step mv = some (o, w₁) ∧ w₁.run mvs = some (es', w') ∧ es = (mv, o) :: es' := by
  simp only [run] at h
  obtain ⟨⟨o, w₁⟩, hs, h⟩ := Option.bind_eq_some_iff.mp h
  obtain ⟨⟨es', w₂⟩, hr, he⟩ := Option.map_eq_some_iff.mp h
  cases he
  exact ⟨o, w₁, es', hs, hr, rfl⟩

lemma run_moves {w w' : Moment κ} {mvs : List (Move κ)} {es : History κ}
    (h : w.run mvs = some (es, w')) : es.map (·.1) = mvs := by
  induction mvs generalizing w es with
  | nil =>
    cases h
    rfl
  | cons mv mvs ih =>
    obtain ⟨o, w₁, es', -, hr, rfl⟩ := run_cons h
    rw [List.map_cons, ih hr]

lemma run_split {w w' : Moment κ} {mvs : List (Move κ)} {es : History κ} {e : Move κ × Outcome κ}
    (h : w.run mvs = some (es, w')) (he : e ∈ es) :
    ∃ mvs₁ es₁ es₂ w₁ w₂, w.run mvs₁ = some (es₁, w₁) ∧ w₁.step e.1 = some (e.2, w₂) ∧
      es = es₁ ++ e :: es₂ := by
  induction mvs generalizing w es with
  | nil =>
    cases h
    cases he
  | cons mv mvs ih =>
    obtain ⟨o, w₀, es', hs, hr, rfl⟩ := run_cons h
    rcases List.mem_cons.mp he with rfl | he
    · exact ⟨[], [], es', w, w₀, rfl, hs, rfl⟩
    · obtain ⟨mvs₁, es₁, es₂, w₁, w₂, hr₁, hs₁, rfl⟩ := ih hr he
      exact ⟨mv :: mvs₁, (mv, o) :: es₁, es₂, w₁, w₂,
        by simp only [run, hs, Option.bind_some, hr₁, Option.map_some], hs₁, rfl⟩

lemma run_append {w w₁ w₂ : Moment κ} {mvs mvs' : List (Move κ)} {es es' : History κ}
    (h : w.run mvs = some (es, w₁)) (h' : w₁.run mvs' = some (es', w₂)) :
    w.run (mvs ++ mvs') = some (es ++ es', w₂) := by
  induction mvs generalizing w es with
  | nil =>
    cases h
    exact h'
  | cons mv mvs ih =>
    obtain ⟨o, w₀, es₀, hs, hr, rfl⟩ := run_cons h
    simp only [List.cons_append, run, hs, Option.bind_some, ih hr, Option.map_some]

lemma run_of_append {w w' : Moment κ} {mvs : List (Move κ)} {es es' : History κ}
    (h : w.run mvs = some (es ++ es', w')) :
    ∃ mvs₁ mvs₂ w₁, mvs = mvs₁ ++ mvs₂ ∧ w.run mvs₁ = some (es, w₁) ∧
      w₁.run mvs₂ = some (es', w') := by
  induction es generalizing w mvs with
  | nil => exact ⟨[], mvs, w, rfl, rfl, h⟩
  | cons e es ih =>
    cases mvs with
    | nil => cases h
    | cons mv mvs =>
      obtain ⟨o, w₀, es₀, hs, hr, he⟩ := run_cons h
      obtain ⟨rfl, rfl⟩ := List.cons.inj he
      obtain ⟨mvs₁, mvs₂, w₁, rfl, hr₁, hr₂⟩ := ih hr
      exact ⟨mv :: mvs₁, mvs₂, w₁, rfl,
        by simp only [run, hs, Option.bind_some, hr₁, Option.map_some], hr₂⟩

lemma run_at {w w' : Moment κ} {mv : Move κ} {before after : List (Move κ)} {es : History κ}
    (hr : w.run (before ++ mv :: after) = some (es, w')) :
    ∃ past w₁ o w₂ rest, w.run before = some (past, w₁) ∧ w₁.step mv = some (o, w₂) ∧
      w₂.run after = some (rest, w') ∧ es = past ++ (mv, o) :: rest := by
  induction before generalizing w es with
  | nil =>
    obtain ⟨o, w₂, rest, hs, hrest, rfl⟩ := run_cons hr
    exact ⟨[], w, o, w₂, rest, rfl, hs, hrest, rfl⟩
  | cons mv' before ih =>
    obtain ⟨o', w₀, es', hs', hr', rfl⟩ := run_cons hr
    obtain ⟨past, w₁, o, w₂, rest, hbefore, hs, hrest, rfl⟩ := ih hr'
    exact ⟨(mv', o') :: past, w₁, o, w₂, rest, run_append (run_single hs') hbefore, hs, hrest, rfl⟩

lemma run_step {w w₁ w₂ : Moment κ} {mvs : List (Move κ)} {es : History κ} {mv : Move κ}
    {o : Outcome κ} (h : w.run mvs = some (es, w₁)) (hs : w₁.step mv = some (o, w₂)) :
    w.run (mvs ++ [mv]) = some (es ++ [(mv, o)], w₂) :=
  run_append h (run_single hs)

def Reaches (w w' : Moment κ) : Prop := ∃ mvs es, w.run mvs = some (es, w')

lemma Reaches.refl (w : Moment κ) : w.Reaches w := ⟨[], [], rfl⟩

lemma Reaches.step {w w' : Moment κ} (mv : Move κ) (o : Outcome κ) (h : w.step mv = some (o, w')) :
    w.Reaches w' := ⟨[mv], [(mv, o)], by simp [run, h]⟩

lemma Reaches.trans {w w₁ w₂ : Moment κ} (h : w.Reaches w₁) (h' : w₁.Reaches w₂) : w.Reaches w₂ := by
  obtain ⟨mvs, es, hr⟩ := h
  obtain ⟨mvs', es', hr'⟩ := h'
  exact ⟨mvs ++ mvs', es ++ es', run_append hr hr'⟩

lemma run_invariant_from {P : History κ → Moment κ → Prop}
    (hstep : ∀ past w mv o w', P past w → w.step mv = some (o, w') → P (past ++ [(mv, o)]) w')
    {w w' : Moment κ} {mvs : List (Move κ)} {past es : History κ} (hP : P past w)
    (hr : w.run mvs = some (es, w')) : P (past ++ es) w' := by
  induction mvs generalizing w past es with
  | nil =>
    simp only [run, Option.some.injEq, Prod.mk.injEq] at hr
    obtain ⟨rfl, rfl⟩ := hr
    simpa using hP
  | cons mv mvs ih =>
    obtain ⟨o, w₁, es', hs, hr', rfl⟩ := run_cons hr
    simpa using ih (hstep past w mv o w₁ hP hs) hr'

lemma run_invariant {P : History κ → Moment κ → Prop}
    (hstep : ∀ past w mv o w', P past w → w.step mv = some (o, w') → P (past ++ [(mv, o)]) w')
    {w w' : Moment κ} {mvs : List (Move κ)} {es : History κ} (hP : P [] w)
    (hr : w.run mvs = some (es, w')) : P es w' :=
  run_invariant_from hstep hP hr

/-! ### Jobs are nobody's choice -/

/-- What the program and the callbacks do, without the jobs of turns. -/
def commands (mvs : List (Move κ)) : List (Move κ) := mvs.filter (!·.isJob)

lemma commands_append (mvs mvs' : List (Move κ)) :
    commands (mvs ++ mvs') = commands mvs ++ commands mvs' := List.filter_append _ _

lemma commands_cons {mv : Move κ} (hmv : mv ≠ .proceed) (mvs : List (Move κ)) :
    commands (mv :: mvs) = mv :: commands mvs := by
  have hno : mv.isJob = false := Bool.eq_false_iff.mpr (mt mv.isJob_iff.mp hmv)
  exact List.filter_cons_of_pos (by simp [hno])

/-- The jobs of turns are nobody's choice. -/
lemma run_determined {w u u' : Moment κ} {mvs mvs' : List (Move κ)} {es es' : History κ}
    (hr : w.run mvs = some (es, u)) (hr' : w.run mvs' = some (es', u'))
    (hcommands : commands mvs = commands mvs') (hu : u.mayAct = true) (hu' : u'.mayAct = true) :
    mvs = mvs' := by
  induction mvs generalizing w mvs' es es' with
  | nil =>
    cases hr
    cases mvs' with
    | nil => rfl
    | cons mv mvs' =>
      obtain ⟨o, v, es', hs, -, -⟩ := run_cons hr'
      have hmv : mv ≠ .proceed := mt (step_cases hs).proceed_iff.mp (by simp [hu])
      rw [commands_cons hmv] at hcommands
      cases hcommands
  | cons mv mvs ih =>
    obtain ⟨o, v, es, hs, hrest, -⟩ := run_cons hr
    have hmv := (step_cases hs).proceed_iff
    cases mvs' with
    | nil =>
      cases hr'
      rw [commands_cons (mt hmv.mp (by simp [hu']))] at hcommands
      cases hcommands
    | cons mv' mvs' =>
      obtain ⟨o', v', es', hs', hrest', -⟩ := run_cons hr'
      have hmv' := (step_cases hs').proceed_iff
      obtain ⟨rfl, htail⟩ : mv = mv' ∧ commands mvs = commands mvs' := by
        cases hw : w.mayAct with
        | true =>
          rw [commands_cons (mt hmv.mp (by simp [hw])), commands_cons (mt hmv'.mp (by simp [hw]))]
            at hcommands
          exact List.cons.inj hcommands
        | false =>
          obtain rfl := hmv.mpr hw
          obtain rfl := hmv'.mpr hw
          exact ⟨rfl, hcommands⟩
      cases hs.symm.trans hs'
      rw [ih hrest hrest' htail]

end Moment

end BoundedStreams
