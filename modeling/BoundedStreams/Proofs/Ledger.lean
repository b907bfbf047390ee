import BoundedStreams.Proofs.Holdings
import Mathlib.Algebra.BigOperators.Group.List.Basic

/-! The books of a whole run. Every connection is on its way in, held by one manager or given up, and
a manager counts the callbacks it is in. -/

namespace BoundedStreams

namespace Site

variable {κ : Type}

lemma did_closes (hs : List Handle) (s : Site κ) : ∃ ds, Did ds s (hs.foldl close s) ∧
    ∀ d ∈ ds, d.admitted = [] ∧ ∀ c, d ≠ .refuse c := by
  induction hs generalizing s with
  | nil => exact ⟨[], .nil s, by simp⟩
  | cons h hs ih =>
    obtain ⟨ds, hds, hall⟩ := ih (s.close h)
    have hone : ∃ d, Does d s (s.close h) ∧ d.admitted = [] ∧ ∀ c, d ≠ .refuse c := by
      rcases s.does_close h with hd | ⟨c, hd⟩ | hd
      · exact ⟨_, hd, by simp [Deed.admitted]⟩
      · exact ⟨_, hd, by simp [Deed.admitted]⟩
      · exact ⟨_, hd, by simp [Deed.admitted]⟩
    obtain ⟨d, hd, hd'⟩ := hone
    refine ⟨d :: ds, .cons hd hds, fun e he => ?_⟩
    rcases List.mem_cons.mp he with rfl | he
    · exact hd'
    · exact hall e he

lemma did_release (s : Site κ) : ∃ ds, Did ds s s.release ∧
    ∀ d ∈ ds, d.admitted = [] ∧ ∀ c, d ≠ .refuse c := by
  obtain ⟨ds, hds, hall⟩ := s.did_closeListener
  obtain ⟨es, hes, hall'⟩ := did_closes s.closeListener.manager.streams.handles s.closeListener
  have hflush : Does .flush (s.closeListener.manager.streams.handles.foldl close s.closeListener)
      s.release := .flush ⟨rfl, rfl, rfl, rfl, rfl, rfl, rfl, .refl _⟩
  refine ⟨ds ++ (es ++ [.flush]), hds.append (hes.append hflush.did), fun d hd => ?_⟩
  simp only [List.mem_append, List.mem_singleton] at hd
  rcases hd with hd | hd | rfl
  · rcases hall d hd with rfl | ⟨c, rfl⟩ <;> simp [Deed.admitted]
  · exact hall' d hd
  · simp [Deed.admitted]

end Site

namespace Moment

variable {κ : Type}

/-- The connections whose arrival was not handled yet. -/
def arriving (w : Moment κ) : List SocketId :=
  awaiting (w.frames.flatMap (·.agenda.batch)) ++ awaiting w.network.queue

def held (w : Moment κ) : List SocketId := w.managers.flatMap (·.elim [] Manager.held)

/-- How many callbacks of a manager are running. -/
def callers (fs : List (Frame κ)) (i : Nat) : Nat :=
  fs.countP fun f => f.manager = i && f.calling.isSome

lemma callers_cons (f : Frame κ) (fs : List (Frame κ)) (i : Nat) :
    callers (f :: fs) i = callers fs i + if f.manager = i ∧ f.calling.isSome then 1 else 0 := by
  simp [callers, List.countP_cons]

lemma callers_eq_zero {fs : List (Frame κ)} {i : Nat} (h : i ∉ fs.map (·.manager)) :
    callers fs i = 0 := by
  rw [callers, List.countP_eq_zero]
  intro f hf
  have : f.manager ≠ i := by
    rintro rfl
    exact h (List.mem_map_of_mem hf)
  simp [this]

def tokens (w : Moment κ) : List SocketId := w.arriving ++ w.held

/-- Each manager is coherent and counts its callbacks, no manager is in two turns, and no connection is
known in two places. -/
structure Orderly (w : Moment κ) : Prop where
  coherent : ∀ i m, w.manager? i = some m → m.Coherent
  depth : ∀ i m, w.manager? i = some m → m.depth = callers w.frames i
  turns : (w.frames.map (·.manager)).Nodup
  known : ∀ f ∈ w.frames, f.manager < w.managers.length
  single : ∀ c, w.tokens.count c ≤ 1
  fresh : ∀ c ∈ w.tokens, c.num < w.network.nextId

lemma orderly_initial (ports : PortSource) : (initial ports : Moment κ).Orderly where
  coherent i m hm := by simp [manager?, initial] at hm
  depth i m hm := by simp [manager?, initial] at hm
  turns := by simp [initial]
  known := by simp [initial]
  single := by simp [tokens, arriving, held, initial, awaiting, Network.initial]
  fresh := by simp [tokens, arriving, held, initial, awaiting, Network.initial]

/-! ### Managers and their sites -/

lemma site?_eq_some_iff (w : Moment κ) (i : Nat) (s : Site κ) : w.site? i = some s ↔
    w.manager? i = some s.manager ∧ w.network = s.network ∧ w.journal = s.journal := by
  simp only [site?, Option.map_eq_some_iff]
  constructor
  · rintro ⟨m, hm, rfl⟩
    exact ⟨hm, rfl, rfl⟩
  · rintro ⟨hm, hn, hj⟩
    exact ⟨s.manager, hm, by rw [hn, hj]⟩

lemma manager?_of_site? {w : Moment κ} {i : Nat} {s : Site κ} (hs : w.site? i = some s) :
    w.manager? i = some s.manager := ((w.site?_eq_some_iff i s).mp hs).1

lemma manager?_eq_some_iff (w : Moment κ) (i : Nat) (m : Manager κ) :
    w.manager? i = some m ↔ w.managers[i]? = some (some m) := by
  simp [manager?, Option.join_eq_some_iff]

lemma lt_of_manager? {w : Moment κ} {i : Nat} {m : Manager κ} (hm : w.manager? i = some m) :
    i < w.managers.length := by
  rw [manager?_eq_some_iff] at hm
  exact (List.getElem?_eq_some_iff.mp hm).1

lemma manager?_put {w : Moment κ} {i : Nat} (hi : i < w.managers.length) (s : Site κ) (j : Nat) :
    (w.put i s).manager? j = if i = j then some s.manager else w.manager? j := by
  simp only [manager?, put, List.getElem?_set, hi, if_true]
  split <;> rfl

lemma sum_map_set {α M : Type} [AddCommMonoid M] (l : List α) (f : α → M) (i : Nat) (a b : α)
    (hi : l[i]? = some a) : ((l.set i b).map f).sum + f a = (l.map f).sum + f b := by
  induction l generalizing i with
  | nil => simp at hi
  | cons x l ih =>
    cases i with
    | zero =>
      obtain rfl : x = a := by simpa using hi
      simp only [List.set_cons_zero, List.map_cons, List.sum_cons]
      rw [add_right_comm, add_rotate]
    | succ i =>
      have := ih i (by simpa using hi)
      simp only [List.set_cons_succ, List.map_cons, List.sum_cons, add_assoc, this]

lemma count_flatMap_set {α : Type} (l : List α) (f : α → List SocketId) (i : Nat) (a b : α)
    (hi : l[i]? = some a) (c : SocketId) :
    ((l.set i b).flatMap f).count c + (f a).count c = (l.flatMap f).count c + (f b).count c := by
  rw [List.count_flatMap, List.count_flatMap]
  exact sum_map_set l (List.count c ∘ f) i a b hi

lemma count_held_set {w : Moment κ} {i : Nat} {m : Manager κ} (hm : w.manager? i = some m)
    (x : Option (Manager κ)) (c : SocketId) :
    ((w.managers.set i x).flatMap (·.elim [] Manager.held)).count c + m.held.count c =
      w.held.count c + (x.elim [] Manager.held).count c :=
  count_flatMap_set w.managers (·.elim [] Manager.held) i (some m) x
    ((w.manager?_eq_some_iff i m).mp hm) c

/-! ### Work at one site -/

/-- The deeds of manager `i` that a move may bring about. -/
def Allows (w : Moment κ) (i : Nat) (s : Site κ) : Move κ → Deed → Prop
  | .call k c, d => k = i ∧ c.Allows s d
  | .proceed, d => d = .enter ∨ ∃ f ∈ w.frames.head?, f.manager = i ∧ f.agenda.Allows s d
  | .leave, d => d = .leave
  | _, _ => False

/-- A move in which manager `i` does the deeds `ds`, with `fs` as the turns after it. -/
structure Work (w : Moment κ) (mv : Move κ) (i : Nat) (s s' : Site κ) (ds : List Deed)
    (fs : List (Frame κ)) : Prop where
  site : w.site? i = some s
  did : Site.Did ds s s'
  allowed : ∀ d ∈ ds, w.Allows i s mv d
  turns : (fs.map (·.manager)).Sublist (w.frames.map (·.manager))
  depth : s'.manager.depth = callers fs i
  others : ∀ j, j ≠ i → callers fs j = callers w.frames j
  batch : (ds.flatMap Deed.admitted ++ awaiting (fs.flatMap (·.agenda.batch))).Sublist
    (awaiting (w.frames.flatMap (·.agenda.batch)))

/-- A step is an action of the network or the notes, the birth or end of a manager, the start of a turn
or the work of one manager. -/
inductive Stage (w : Moment κ) : Move κ → Outcome κ → Moment κ → Prop where
  | network (a : Network.Action) : Stage w (.network a) (.network (w.network.perform a).1)
      { w with network := (w.network.perform a).2 }
  | note (n : Note) : Stage w (.note n) .done { w with journal := w.journal.note n }
  | create (o : Options) : Stage w (.create o) .done (w.create o)
  | release (i : Nat) (s : Site κ) (hi : w.inTurn i = false) (hs : w.site? i = some s) :
      Stage w (.release i) .done (w.release i s)
  | begin (i : Nat) (s : Site κ) (hi : w.inTurn i = false) (hs : w.site? i = some s) :
      Stage w (.begin i) .done (w.begin i s)
  | work {mv : Move κ} {o : Outcome κ} {i : Nat} {s s' : Site κ} {ds : List Deed}
      {fs : List (Frame κ)} (h : Work w mv i s s' ds fs) :
      Stage w mv o (w.during i s' fs)

lemma Orderly.depth_site {w : Moment κ} (hw : w.Orderly) {i : Nat} {s : Site κ}
    (hs : w.site? i = some s) : s.manager.depth = callers w.frames i :=
  hw.depth i _ (manager?_of_site? hs)

lemma Orderly.coherent_site {w : Moment κ} (hw : w.Orderly) {i : Nat} {s : Site κ}
    (hs : w.site? i = some s) : s.manager.Coherent :=
  hw.coherent i _ (manager?_of_site? hs)

lemma call_allows_ne {s : Site κ} {c : Call Handle κ} {d : Deed} (h : c.Allows s d) :
    d.admitted = [] ∧ d ≠ .enter ∧ d ≠ .leave := by
  cases c <;> cases d <;> simp_all [Call.Allows, Deed.admitted]

lemma work_call {w : Moment κ} (hw : w.Orderly) {i : Nat} {s : Site κ} (c : Call Handle κ)
    (hs : w.site? i = some s) :
    ∃ ds, Work w (.call i c) i s (c.perform s).2 ds w.frames := by
  obtain ⟨ds, hds, hall⟩ := Site.did_call s c
  have hne := fun d hd => call_allows_ne (hall d hd)
  have hnone : ds.flatMap Deed.admitted = [] :=
    List.flatMap_eq_nil_iff.mpr fun d hd => (hne d hd).1
  refine ⟨ds, hs, hds, fun d hd => ⟨rfl, hall d hd⟩, List.Sublist.refl _, ?_, fun _ _ => rfl, ?_⟩
  · rw [hds.depth_eq fun d hd => (hne d hd).2, hw.depth_site hs]
  · rw [hnone, List.nil_append]

lemma agenda_allows_ne {s : Site κ} {a : Agenda} {d : Deed} (h : a.Allows s d) :
    d ≠ .enter ∧ d ≠ .leave := by
  rcases a with (_ | e) | _ | _ <;> cases d <;> simp_all [Agenda.Allows, SocketEvent.Allows]

lemma depth_enter (s : Site κ) : s.enter.manager.depth = s.manager.depth + 1 := rfl

lemma depth_leave (s : Site κ) : s.leave.manager.depth = s.manager.depth - 1 := by
  rw [Site.leave]
  dsimp only
  split <;> rfl

lemma Orderly.depth_eq_zero {w : Moment κ} (hw : w.Orderly) {i : Nat} {agenda : Agenda}
    {frames : List (Frame κ)} {s : Site κ} (hf : w.frames = ⟨i, agenda, none⟩ :: frames)
    (hs : w.site? i = some s) : callers frames i = 0 ∧ s.manager.depth = 0 := by
  -- The manager is in no other turn, and in this one it calls nobody.
  have hn := hw.turns
  rw [hf, List.map_cons, List.nodup_cons] at hn
  have hz : callers frames i = 0 := callers_eq_zero hn.1
  have hd := hw.depth_site hs
  rw [hf, callers_cons] at hd
  simp only [Option.isSome_none, Bool.false_eq_true, and_false, if_false] at hd
  exact ⟨hz, by omega⟩

lemma work_proceed {w : Moment κ} (hw : w.Orderly) {i : Nat} {agenda : Agenda}
    {frames : List (Frame κ)} {s : Site κ} (hf : w.frames = ⟨i, agenda, none⟩ :: frames)
    (hs : w.site? i = some s) : ∃ s' ds fs, Work w .proceed i s s' ds fs ∧
      (w.proceed i agenda frames s).2 = w.during i s' fs := by
  obtain ⟨hz, hd⟩ := hw.depth_eq_zero hf hs
  have hm := hw.coherent_site hs
  obtain ⟨ds, hds, hsub, hall⟩ := agenda.did_next s hd hm.record
  have hall' : ∀ d ∈ ds, w.Allows i s .proceed d := by
    intro d hmem
    exact Or.inr ⟨⟨i, agenda, none⟩, by simp [hf], rfl, hall d hmem⟩
  have hd₁ := hds.depth_eq fun d hmem => agenda_allows_ne (hall d hmem)
  have hbatch : ∀ es, (ds.flatMap Deed.admitted ++ awaiting es).Sublist (awaiting agenda.batch) →
      (ds.flatMap Deed.admitted ++ awaiting (es ++ frames.flatMap (·.agenda.batch))).Sublist
        (awaiting (w.frames.flatMap (·.agenda.batch))) := by
    intro es hes
    rw [hf, List.flatMap_cons, awaiting_append, awaiting_append, ← List.append_assoc]
    exact hes.append_right _
  have hothers : ∀ (a : Agenda) (n : Option (Notice κ)) (j : Nat), j ≠ i →
      callers (⟨i, a, n⟩ :: frames) j = callers w.frames j := by
    intro a n j hj
    rw [hf, callers_cons, callers_cons]
    simp [Ne.symm hj]
  -- A job that ends with a notice also enters the callback.
  rw [proceed]
  rcases he : agenda.next s with ⟨_ | a, s₁, n⟩
  · rw [he] at hds hsub hd₁
    refine ⟨s₁, ds, frames, ⟨hs, hds, hall', ?_, ?_, ?_, hbatch [] hsub⟩, rfl⟩
    · rw [hf]
      exact List.sublist_cons_self _ _
    · rw [hd₁, hd, hz]
    · intro j hj
      rw [hf, callers_cons]
      simp [Ne.symm hj]
  · rw [he] at hds hsub hd₁
    cases n with
    | none =>
      refine ⟨s₁, ds, ⟨i, a, none⟩ :: frames,
        ⟨hs, hds, hall', ?_, ?_, hothers a none, hbatch a.batch hsub⟩, rfl⟩
      · rw [hf]
        exact List.Sublist.refl _
      · rw [hd₁, hd, callers_cons, hz]
        simp
    | some n =>
      have henter : Site.Does .enter s₁ s₁.enter := .enter (.refl _)
      refine ⟨s₁.enter, ds ++ [.enter], ⟨i, a, some n⟩ :: frames,
        ⟨hs, hds.append henter.did, ?_, ?_, ?_, hothers a (some n), ?_⟩, rfl⟩
      · intro d hmem
        rcases List.mem_append.mp hmem with hmem | hmem
        · exact hall' d hmem
        · exact Or.inl (List.mem_singleton.mp hmem)
      · rw [hf]
        exact List.Sublist.refl _
      · rw [depth_enter, hd₁, hd, callers_cons, hz]
        simp
      · simpa [Deed.admitted] using hbatch a.batch hsub

lemma work_leave {w : Moment κ} (hw : w.Orderly) {i : Nat} {agenda : Agenda} {n : Notice κ}
    {frames : List (Frame κ)} {s : Site κ} (hf : w.frames = ⟨i, agenda, some n⟩ :: frames)
    (hs : w.site? i = some s) :
    Work w .leave i s s.leave [.leave] (⟨i, agenda, none⟩ :: frames) where
  site := hs
  did := Site.Does.did (.leave (.refl _))
  allowed d hd := List.mem_singleton.mp hd
  turns := by rw [hf]; exact List.Sublist.refl _
  depth := by
    have hd := hw.depth_site hs
    rw [hf, callers_cons] at hd
    rw [depth_leave, hd, callers_cons]
    simp
  others j hj := by
    rw [hf, callers_cons, callers_cons]
    simp [Ne.symm hj]
  batch := by simp [hf, Deed.admitted]

lemma Step.stage {w w' : Moment κ} {mv : Move κ} {o : Outcome κ} (hw : w.Orderly)
    (h : Step w mv o w') : Stage w mv o w' := by
  cases h with
  | network a _ => exact .network a
  | call i c s _ hs =>
    obtain ⟨ds, hwork⟩ := work_call hw c hs
    exact .work hwork
  | note n _ => exact .note n
  | create o _ => exact .create o
  | release i s _ hi hs => exact .release i s hi hs
  | begin i s _ hi hs => exact .begin i s hi hs
  | proceed i agenda frames s hf hs =>
    obtain ⟨s', ds, fs, hwork, he⟩ := work_proceed hw hf hs
    rw [he]
    exact .work hwork
  | leave i agenda n frames s hf hs => exact .work (work_leave hw hf hs)

/-! ### The books stay in order -/

lemma Orderly.of_tokens {w : Moment κ} (hw : w.Orderly) (w' : Moment κ)
    (hle : ∀ c, w'.tokens.count c ≤ w.tokens.count c) (hn : w.network.nextId ≤ w'.network.nextId) :
    (∀ c, w'.tokens.count c ≤ 1) ∧ ∀ c ∈ w'.tokens, c.num < w'.network.nextId := by
  refine ⟨fun c => Nat.le_trans (hle c) (hw.single c), fun c hc => ?_⟩
  have hpos := List.count_pos_iff.mpr hc
  have hmem : c ∈ w.tokens := List.count_pos_iff.mp (Nat.lt_of_lt_of_le hpos (hle c))
  exact Nat.lt_of_lt_of_le (hw.fresh c hmem) hn

lemma Orderly.of_network {w : Moment κ} (hw : w.Orderly) (n : Network)
    (hq : ∀ c, (awaiting n.queue).count c ≤ (awaiting w.network.queue).count c)
    (hn : w.network.nextId ≤ n.nextId) : ({ w with network := n } : Moment κ).Orderly := by
  obtain ⟨hs, hf⟩ := hw.of_tokens { w with network := n } (fun c => by
    have := hq c
    simp only [tokens, arriving, held, List.count_append]
    omega) hn
  exact ⟨hw.coherent, hw.depth, hw.turns, hw.known, hs, hf⟩

lemma Orderly.connect {w : Moment κ} (hw : w.Orderly) (t : Table SocketId Connection)
    (l : SocketId) : ({ w with network := { w.network with
      nextId := w.network.nextId + 1
      connections := t
      queue := w.network.queue ++ [⟨⟨w.network.nextId⟩, .accepted l⟩] } } : Moment κ).Orderly := by
  have hnew : ⟨w.network.nextId⟩ ∉ w.tokens := fun hmem => Nat.lt_irrefl _ (hw.fresh _ hmem)
  refine ⟨hw.coherent, hw.depth, hw.turns, hw.known, fun c => ?_, fun c hc => ?_⟩
  -- Only the new connection is counted once more, and it was not known before.
  · have hc := hw.single c
    simp only [tokens, arriving, held, awaiting_append, List.count_append] at hc ⊢
    by_cases he : c = ⟨w.network.nextId⟩
    · subst he
      have hz := List.count_eq_zero.mpr hnew
      simp only [tokens, arriving, held, List.count_append] at hz
      have : (awaiting [⟨⟨w.network.nextId⟩, .accepted l⟩]).count ⟨w.network.nextId⟩ = 1 := by
        simp [awaiting, SocketEvent.accepted?]
      omega
    · have : (awaiting [⟨⟨w.network.nextId⟩, .accepted l⟩]).count c = 0 := by
        simpa [awaiting, SocketEvent.accepted?, List.count_eq_zero] using he
      omega
  · have hone : awaiting [⟨⟨w.network.nextId⟩, .accepted l⟩] = [⟨w.network.nextId⟩] := rfl
    simp only [tokens, arriving, held, awaiting_append, hone, List.mem_append,
      List.mem_singleton] at hc
    have hold : ∀ c ∈ w.tokens, c.num < w.network.nextId + 1 :=
      fun c hc => Nat.lt_succ_of_lt (hw.fresh c hc)
    simp only [tokens, arriving, held, List.mem_append] at hold
    rcases hc with (hc | hc | rfl) | hc
    · exact hold c (Or.inl (Or.inl hc))
    · exact hold c (Or.inl (Or.inr hc))
    · exact Nat.lt_succ_self _
    · exact hold c (Or.inr hc)

lemma Orderly.perform {w : Moment κ} (hw : w.Orderly) (a : Network.Action) :
    ({ w with network := (w.network.perform a).2 } : Moment κ).Orderly := by
  have h := w.network.shift_perform a
  generalize (w.network.perform a).2 = n at h
  cases h with
  | quiet h => exact hw.of_network n (fun c => Nat.le_of_eq (by rw [h.queue])) h.nextId
  | connect p l => exact hw.connect _ l
  | peerSend s bs h =>
    have hnone : awaiting [⟨s, .received⟩] = [] := rfl
    refine hw.of_network _ (fun c => Nat.le_of_eq ?_) h.nextId
    rw [Network.enqueue, awaiting_append, h.queue, hnone, List.append_nil]
  | close c =>
    exact hw.of_network _ (fun d => Nat.le_of_eq (by rw [Network.awaiting_close]))
      (Nat.le_of_eq (w.network.nextId_close c).symm)
  | poll => exact hw.of_network _ (fun c => Nat.zero_le _) (Nat.le_refl _)

lemma Orderly.create {w : Moment κ} (hw : w.Orderly) (o : Options) : (w.create o).Orderly := by
  have hm : ∀ i m, (w.create o).manager? i = some m → w.manager? i = some m ∨
      i = w.managers.length ∧ m = (Manager.create o w.ports).1 := by
    intro i m hm
    rw [manager?_eq_some_iff] at hm
    simp only [Moment.create, List.getElem?_append] at hm
    split at hm
    · exact Or.inl ((w.manager?_eq_some_iff i m).mpr hm)
    · next hi =>
      rw [List.getElem?_singleton] at hm
      split at hm
      · exact Or.inr ⟨by omega, (Option.some.inj (Option.some.inj hm)).symm⟩
      · cases hm
  obtain ⟨hs, hf⟩ := hw.of_tokens (w.create o) (fun c => by
    simp only [tokens, arriving, held, Moment.create, List.flatMap_append, List.count_append]
    simp [Manager.held, Manager.create, Table.keys, Table.empty, Backlog.sockets]) (Nat.le_refl _)
  refine ⟨fun i m h => ?_, fun i m h => ?_, hw.turns, fun f hf => ?_, hs, hf⟩
  · rcases hm i m h with h | ⟨-, rfl⟩
    · exact hw.coherent i m h
    · exact Manager.coherent_create o w.ports
  · rcases hm i m h with h | ⟨rfl, rfl⟩
    · exact hw.depth i m h
    · have hz : callers w.frames w.managers.length = 0 := callers_eq_zero fun hmem => by
        obtain ⟨f, hf, he⟩ := List.mem_map.mp hmem
        exact Nat.lt_irrefl _ (he ▸ hw.known f hf)
      exact hz.symm
  · have := hw.known f hf
    simp only [Moment.create, List.length_append]
    omega

lemma inTurn_eq_false_iff (w : Moment κ) (i : Nat) :
    w.inTurn i = false ↔ i ∉ w.frames.map (·.manager) := by
  simp [inTurn]

lemma manager?_begin {w : Moment κ} {i : Nat} {s : Site κ} (hs : w.site? i = some s) (j : Nat) :
    (w.begin i s).manager? j =
      if i = j then some { s.manager with turns := s.manager.turns + 1 } else w.manager? j :=
  manager?_put (lt_of_manager? (manager?_of_site? hs)) s.begin.2 j

lemma manager?_release {w : Moment κ} {i : Nat} {s : Site κ} (hs : w.site? i = some s) (j : Nat) :
    (w.release i s).manager? j = if i = j then none else w.manager? j := by
  have hi := lt_of_manager? (manager?_of_site? hs)
  simp only [manager?, Moment.release, List.getElem?_set, hi, if_true]
  split <;> rfl

lemma Orderly.begin {w : Moment κ} (hw : w.Orderly) {i : Nat} {s : Site κ}
    (hi : w.inTurn i = false) (hs : w.site? i = some s) : (w.begin i s).Orderly := by
  obtain ⟨hm, hn, -⟩ := (w.site?_eq_some_iff i s).mp hs
  have hlt := lt_of_manager? hm
  obtain ⟨hsingle, hfresh⟩ := hw.of_tokens (w.begin i s) (fun c => by
    have hh := count_held_set hm (some { s.manager with turns := s.manager.turns + 1 }) c
    have hb := congrArg (List.count c) s.network.awaiting_poll
    have hq : awaiting s.network.poll.2.queue = [] := rfl
    have hsame : Manager.held { s.manager with turns := s.manager.turns + 1 } = s.manager.held := rfl
    simp only [Option.elim_some, hsame] at hh
    simp only [tokens, arriving, held, Moment.begin, during, Site.begin, put, List.flatMap_cons,
      awaiting_append, List.count_append, Agenda.batch, hq, List.count_nil]
    rw [hb, ← hn]
    simp only [held] at hh
    omega) (by rw [hn]; exact Nat.le_refl _)
  refine ⟨fun j m h => ?_, fun j m h => ?_, ?_, ?_, hsingle, hfresh⟩
  · rw [manager?_begin hs] at h
    split at h
    · cases h
      have hc := hw.coherent_site hs
      exact ⟨hc.arena, hc.linked, hc.counted, hc.single⟩
    · exact hw.coherent j m h
  · show m.depth = callers (⟨i, .events s.begin.1, none⟩ :: w.frames) j
    rw [callers_cons]
    simp only [Option.isSome_none, Bool.false_eq_true, and_false, if_false, Nat.add_zero]
    rw [manager?_begin hs] at h
    split at h
    · next hij =>
      cases h
      subst hij
      exact hw.depth_site hs
    · exact hw.depth j m h
  · exact List.nodup_cons.mpr ⟨(w.inTurn_eq_false_iff i).mp hi, hw.turns⟩
  · intro f hf
    have hlen : (w.begin i s).managers.length = w.managers.length := List.length_set
    rw [hlen]
    rcases List.mem_cons.mp hf with rfl | hf
    · exact hlt
    · exact hw.known f hf

lemma Orderly.release {w : Moment κ} (hw : w.Orderly) {i : Nat} {s : Site κ}
    (hs : w.site? i = some s) : (w.release i s).Orderly := by
  obtain ⟨hm, hn, -⟩ := (w.site?_eq_some_iff i s).mp hs
  obtain ⟨ds, hds, hall⟩ := s.did_release
  obtain ⟨hq, hid⟩ := hds.traffic
  obtain ⟨hsingle, hfresh⟩ := hw.of_tokens (w.release i s) (fun c => by
    have hh := count_held_set hm none c
    simp only [Option.elim_none, List.count_nil] at hh
    simp only [tokens, arriving, held, Moment.release, put, List.count_append]
    rw [hq, ← hn]
    simp only [held] at hh
    omega) (by rw [hn]; exact hid)
  refine ⟨fun j m h => ?_, fun j m h => ?_, hw.turns, ?_, hsingle, hfresh⟩
  · rw [manager?_release hs] at h
    split at h
    · cases h
    · exact hw.coherent j m h
  · rw [manager?_release hs] at h
    split at h
    · cases h
    · exact hw.depth j m h
  · intro f hf
    have hlen : (w.release i s).managers.length = w.managers.length := List.length_set
    rw [hlen]
    exact hw.known f hf

lemma Work.single {w : Moment κ} (hw : w.Orderly) {mv : Move κ} {i : Nat} {s s' : Site κ}
    {ds : List Deed} {fs : List (Frame κ)} (h : Work w mv i s s' ds fs) (c : SocketId) :
    (ds.flatMap Deed.admitted).count c + s.manager.held.count c ≤ 1 := by
  have hm := ((w.site?_eq_some_iff i s).mp h.site).1
  have hb := h.batch.count_le c
  have hh := count_held_set hm none c
  have hc := hw.single c
  simp only [tokens, arriving, List.count_append] at hc hb
  simp only [Option.elim_none, List.count_nil] at hh
  omega

lemma Work.orderly {w : Moment κ} (hw : w.Orderly) {mv : Move κ} {i : Nat} {s s' : Site κ}
    {ds : List Deed} {fs : List (Frame κ)} (h : Work w mv i s s' ds fs) :
    (w.during i s' fs).Orderly := by
  obtain ⟨hm, hn, -⟩ := (w.site?_eq_some_iff i s).mp h.site
  have hlt := lt_of_manager? hm
  have hx := h.single hw
  have hcoh := hw.coherent_site h.site
  obtain ⟨hq, hid⟩ := h.did.traffic
  obtain ⟨hsingle, hfresh⟩ := hw.of_tokens (w.during i s' fs) (fun c => by
    have hh := count_held_set hm (some s'.manager) c
    have hle := h.did.count_held_le hcoh hx c
    have hb := h.batch.count_le c
    simp only [List.count_append] at hb
    simp only [Option.elim_some, held] at hh
    simp only [tokens, arriving, held, during, put, List.count_append]
    rw [hq, ← hn]
    omega) (by rw [hn]; exact hid)
  refine ⟨fun j m hj => ?_, fun j m hj => ?_, ?_, ?_, hsingle, hfresh⟩
  · have hj : (w.put i s').manager? j = some m := hj
    rw [manager?_put hlt] at hj
    split at hj
    · cases hj
      exact h.did.coherent hcoh hx
    · exact hw.coherent j m hj
  · have hj : (w.put i s').manager? j = some m := hj
    rw [manager?_put hlt] at hj
    split at hj
    · next hij =>
      cases hj
      subst hij
      exact h.depth
    · next hij =>
      rw [hw.depth j m hj]
      exact (h.others j (Ne.symm hij)).symm
  · exact h.turns.nodup hw.turns
  · intro f hf
    have hmem := h.turns.subset (List.mem_map_of_mem (f := fun f : Frame κ => f.manager) hf)
    obtain ⟨g, hg, he⟩ := List.mem_map.mp hmem
    have hlen : (w.put i s').managers.length = w.managers.length := List.length_set
    show f.manager < (w.put i s').managers.length
    rw [hlen, ← he]
    exact hw.known g hg

lemma Stage.orderly {w w' : Moment κ} {mv : Move κ} {o : Outcome κ} (hw : w.Orderly)
    (h : Stage w mv o w') : w'.Orderly := by
  cases h with
  | network a => exact hw.perform a
  | note n => exact ⟨hw.coherent, hw.depth, hw.turns, hw.known, hw.single, hw.fresh⟩
  | create o => exact hw.create o
  | release i s hi hs => exact hw.release hs
  | begin i s hi hs => exact hw.begin hi hs
  | work h => exact h.orderly hw

lemma orderly_run {ports : PortSource} {mvs : List (Move κ)} {es : History κ} {w : Moment κ}
    (hr : (initial ports).run mvs = some (es, w)) : w.Orderly :=
  run_invariant (P := fun _ w => w.Orderly)
    (fun _ _ _ _ _ hw hs => ((step_cases hs).stage hw).orderly hw) (orderly_initial ports) hr

lemma founded_notice {w w' : Moment κ} {mv : Move κ} {i : Nat} {n : Notice κ}
    (h : w.step mv = some (.notice i n, w')) :
    w'.mayAct = true ∧ ∃ s, w'.site? i = some s ∧ s.Founded n := by
  have h' := step_cases h
  generalize ho : Outcome.notice i n = o at h'
  cases h' with
  | network a _ | call k c s _ hs | note n _ | create o _ | release k s _ hi hs
  | begin k s _ hi hs | leave k agenda n frames s hf hs => cases ho
  | proceed k agenda frames s hf hs =>
    have hlt := lt_of_manager? (manager?_of_site? hs)
    have hn := @agenda.founded_next κ s
    rw [proceed] at ho ⊢
    rcases he : agenda.next s with ⟨_ | a, s₁, _ | n'⟩
    · rw [he] at ho; cases ho
    · rw [he] at ho; cases ho
    · rw [he] at ho; cases ho
    · rw [he] at ho hn
      cases ho
      refine ⟨rfl, s₁.enter, ?_, ?_⟩
      · rw [site?_eq_some_iff]
        refine ⟨?_, rfl, rfl⟩
        have := manager?_put hlt s₁.enter i
        rwa [if_pos rfl] at this
      · have := hn rfl
        cases n <;> exact this

/-! ### What becomes of one manager -/

/-- What a move makes of manager `j`. -/
inductive Fate (w : Moment κ) (mv : Move κ) (j : Nat) : Option (Manager κ) → Prop where
  | same : Fate w mv j (w.manager? j)
  | born (o : Options) (ports : PortSource) (hj : w.managers.length = j) :
      Fate w mv j (some (Manager.create o ports).1)
  | gone (hmv : mv = .release j) : Fate w mv j none
  | begun (m : Manager κ) (hm : w.manager? j = some m) :
      Fate w mv j (some { m with turns := m.turns + 1 })
  | did (s s' : Site κ) (ds : List Deed) (hs : w.site? j = some s) (hm : s.manager.Coherent)
      (hx : ∀ c, (ds.flatMap Deed.admitted).count c + s.manager.held.count c ≤ 1)
      (hds : Site.Did ds s s') (hall : ∀ d ∈ ds, w.Allows j s mv d) : Fate w mv j (some s'.manager)

lemma Stage.fate {w w' : Moment κ} {mv : Move κ} {o : Outcome κ} (hw : w.Orderly)
    (h : Stage w mv o w') (j : Nat) : Fate w mv j (w'.manager? j) := by
  cases h with
  | network a => exact .same
  | note n => exact .same
  | create o =>
    rcases Nat.lt_trichotomy j w.managers.length with hj | hj | hj
    · have he : (w.create o).manager? j = w.manager? j := by
        simp [manager?, Moment.create, List.getElem?_append_left hj]
      rw [he]
      exact .same
    · have he : (w.create o).manager? j = some (Manager.create o w.ports).1 := by
        simp [manager?, Moment.create, hj]
      rw [he]
      exact .born o w.ports hj.symm
    · have he : (w.create o).manager? j = w.manager? j := by
        have h₁ : (w.managers ++ [some (Manager.create o w.ports).1])[j]? = none :=
          List.getElem?_eq_none (by simp; omega)
        have h₂ : w.managers[j]? = none := List.getElem?_eq_none (by omega)
        simp [manager?, Moment.create, h₁, h₂]
      rw [he]
      exact .same
  | release i s hi hs =>
    rw [manager?_release hs]
    split
    · next hij =>
      apply Fate.gone
      rw [hij]
    · exact .same
  | begin i s hi hs =>
    rw [manager?_begin hs]
    split
    · next hij =>
      subst hij
      exact .begun s.manager (manager?_of_site? hs)
    · exact .same
  | @work _ _ i s s' ds fs h =>
    have hlt := lt_of_manager? ((w.site?_eq_some_iff i s).mp h.site).1
    show Fate w mv j ((w.put i s').manager? j)
    rw [manager?_put hlt]
    split
    · next hij =>
      subst hij
      exact .did s s' ds h.site (hw.coherent_site h.site) (h.single hw) h.did h.allowed
    · exact .same

lemma Fate.options {w : Moment κ} {mv : Move κ} {j : Nat} {x : Option (Manager κ)} {o : Options}
    (h : Fate w mv j x) (hj : j < w.managers.length)
    (hold : ∀ m, w.manager? j = some m → m.options = o) : ∀ m, x = some m → m.options = o := by
  rintro m rfl
  generalize hx : some m = y at h
  cases h with
  | same => exact hold m hx.symm
  | born p ports hlen => omega
  | gone hmv => cases hx
  | begun m' hm =>
    cases hx
    exact hold m' hm
  | did s s' ds hs hm hx' hds hall =>
    cases hx
    exact hds.options.trans (hold _ (manager?_of_site? hs))

/-- A property of managers that every manager has from its creation on. -/
structure Lasting (Q : Manager κ → Prop) : Prop where
  create : ∀ o ports, Q (Manager.create o ports).1
  begin : ∀ m, Q m → Q { m with turns := m.turns + 1 }
  deed : ∀ d s s', Site.Does d s s' → s.manager.Coherent → Q s.manager → Q s'.manager

lemma Lasting.fate {Q : Manager κ → Prop} (hQ : Lasting Q) {w : Moment κ} {mv : Move κ} {j : Nat}
    {x : Option (Manager κ)} (hold : ∀ m, w.manager? j = some m → Q m) (h : Fate w mv j x) :
    ∀ m, x = some m → Q m := by
  rintro m rfl
  generalize hx : some m = y at h
  cases h with
  | same => exact hold m hx.symm
  | born o ports hj =>
    cases hx
    exact hQ.create o ports
  | gone hmv => cases hx
  | begun m' hm =>
    cases hx
    exact hQ.begin m' (hold m' hm)
  | did s s' ds hs hm hx' hds hall =>
    cases hx
    exact (hds.invariant (P := fun s => Q s.manager) hm hx'
      (hold _ (manager?_of_site? hs)) fun d _ s s' => hQ.deed d s s').2

lemma Lasting.run {Q : Manager κ → Prop} (hQ : Lasting Q) {ports : PortSource}
    {mvs : List (Move κ)} {es : History κ} {w : Moment κ}
    (hr : (initial ports).run mvs = some (es, w)) {i : Nat} {m : Manager κ}
    (hm : w.manager? i = some m) : Q m := by
  refine (run_invariant (P := fun _ w => w.Orderly ∧ ∀ i m, w.manager? i = some m → Q m)
    (fun _ w mv o w' hw hs => ?_) ⟨orderly_initial ports, ?_⟩ hr).2 i m hm
  · have hst := (step_cases hs).stage hw.1
    exact ⟨hst.orderly hw.1, fun j => hQ.fate (hw.2 j) (hst.fate hw.1 j)⟩
  · intro i m hm
    simp [manager?, initial] at hm

end Moment

end BoundedStreams
