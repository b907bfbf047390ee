import BoundedStreams.Proofs.Capacity
import BoundedStreams.Proofs.Custody
import Mathlib

/-! A sole manager that alone polls its network loses no connection and keeps none after its end. -/

namespace BoundedStreams

/-- The connections that leave a manager because their peers closed them. -/
def Deed.dropped : Deed → List SocketId
  | .withdraw c | .orphan _ c false | .free _ c false => [c]
  | _ => []

/-- The connections that a manager has and is not about to close. -/
def Manager.owned {κ : Type} (m : Manager κ) : List SocketId := m.backlog.sockets ++ m.sockets.keys

namespace Site

variable {κ : Type}

lemma Alike.owned_eq {s s' : Site κ} (h : s.Alike s') : s'.manager.owned = s.manager.owned := by
  rw [Manager.owned, Manager.owned, h.pending, h.sockets]

lemma mem_held_abort (s : Site κ) (c d : SocketId) : d ∈ (s.abort c).manager.held ↔
    d ∈ s.manager.held ∨ s.manager.depth ≠ 0 ∧ d = c := by
  rw [abort]
  split
  · next h => simp [h]
  · next h => simp [h, put, Manager.held, or_assoc]

lemma owned_abort (s : Site κ) (c : SocketId) : (s.abort c).manager.owned = s.manager.owned := by
  rw [abort]
  split <;> rfl

lemma Does.mem_held {d : Deed} {s s' : Site κ} (h : Does d s s') (hm : s.manager.Coherent)
    {c : SocketId} (hc : c ∈ s.manager.held) :
    c ∈ s'.manager.held ∨ c ∈ d.cut s.manager ∨ c ∈ d.dropped := by
  cases h with
  | keep h => exact Or.inl (h.held_eq ▸ hc)
  | tend k f hf h => exact Or.inl (h.held_eq ▸ hc)
  | enqueue c' hd ha h =>
    left
    rw [h.held_eq]
    simp only [Manager.held, put, Backlog.sockets_push, List.mem_append] at hc ⊢
    tauto
  | withdraw c' hc' h =>
    rw [h.held_eq]
    by_cases he : c = c'
    · exact Or.inr (Or.inr (List.mem_singleton.mpr he))
    · left
      simp only [Manager.held, put, Backlog.sockets_withdraw, List.mem_append,
        List.mem_erase_of_ne he] at hc ⊢
      exact hc
  | shed p b hb h =>
    rw [h.held_eq, mem_held_abort]
    simp only [Manager.held, hb, Backlog.sockets, List.map_cons, List.mem_append,
      List.mem_cons] at hc
    simp only [Manager.held, put, Backlog.sockets, List.mem_append, Deed.cut]
    by_cases hd : s.manager.depth = 0
    · simp only [hd, if_true, List.mem_singleton]
      tauto
    · tauto
  | refuse c' hd h => exact Or.inl (h.held_eq ▸ hc)
  | claim k a p b hb hc' hi h =>
    left
    rw [h.held_eq]
    simp only [Manager.held, hb, Backlog.sockets, List.map_cons, List.mem_append,
      List.mem_cons] at hc
    simp only [Manager.held, put, Backlog.sockets, List.mem_append,
      Table.keys_set_of_not_mem _ _ _ (hm.pending_not_mem_keys hb), List.mem_singleton]
    tauto
  | close k r c' hr hc' h =>
    rw [h.held_eq, mem_held_abort]
    simp only [Manager.held, put, Table.keys_erase, List.mem_append, List.mem_filter,
      decide_eq_true_eq, Deed.cut] at hc ⊢
    by_cases hd : s.manager.depth = 0
    · simp only [hd, if_true, List.mem_singleton]
      tauto
    · tauto
  | dismiss k r hr hc' h => exact Or.inl (h.held_eq ▸ hc)
  | orphan k r c' ab hd hr hc' hi h =>
    rw [h.held_eq]
    simp only [Manager.held, detached, Table.keys_erase, List.mem_append, List.mem_filter,
      decide_eq_true_eq, Deed.cut] at hc ⊢
    cases ab <;> simp only [Deed.dropped, if_true, List.mem_singleton] <;> tauto
  | free k r c' ab hd hr hc' hi h =>
    rw [h.held_eq]
    simp only [Manager.held, detached, put, Table.keys_erase, List.mem_append, List.mem_filter,
      decide_eq_true_eq, Deed.cut] at hc ⊢
    cases ab <;> simp only [Deed.dropped, if_true, List.mem_singleton] <;> tauto
  | enter h => exact Or.inl (h.held_eq ▸ hc)
  | leave h =>
    rw [h.held_eq]
    rw [Site.leave]
    dsimp only
    split
    · next hd =>
      have hd' : s.manager.depth - 1 = 0 := hd
      simp only [Site.flush, put, Manager.held, List.mem_append, Deed.cut, hd', if_true] at hc ⊢
      tauto
    · exact Or.inl hc
  | flush h =>
    rw [h.held_eq]
    simp only [Site.flush, Manager.held, List.mem_append, Deed.cut] at hc ⊢
    tauto

lemma Does.mem_owned {d : Deed} {s s' : Site κ} (h : Does d s s') (hm : s.manager.Coherent)
    {c : SocketId} (hc : c ∈ s'.manager.owned) : c ∈ s.manager.owned ∨ c ∈ d.admitted := by
  cases h with
  | keep h | tend k f hf h | refuse c' hd h | dismiss k r hr hc' h | enter h | flush h =>
    exact Or.inl (h.owned_eq ▸ hc)
  | enqueue c' hd ha h =>
    rw [h.owned_eq] at hc
    simp only [Manager.owned, put, Backlog.sockets_push, List.mem_append] at hc
    simp only [Manager.owned, Deed.admitted, List.mem_append]
    tauto
  | withdraw c' hc' h =>
    rw [h.owned_eq] at hc
    simp only [Manager.owned, put, Backlog.sockets_withdraw, List.mem_append] at hc
    exact Or.inl (List.mem_append.mpr (hc.imp List.mem_of_mem_erase id))
  | shed p b hb h =>
    rw [h.owned_eq, owned_abort] at hc
    simp only [Manager.owned, put, List.mem_append] at hc
    left
    simp only [Manager.owned, hb, Backlog.sockets, List.map_cons, List.mem_append, List.mem_cons]
    exact hc.imp Or.inr id
  | claim k a p b hb hc' hi h =>
    rw [h.owned_eq] at hc
    simp only [Manager.owned, put, Table.keys_set_of_not_mem _ _ _ (hm.pending_not_mem_keys hb),
      List.mem_append, List.mem_singleton] at hc
    left
    simp only [Manager.owned, hb, Backlog.sockets, List.map_cons, List.mem_append, List.mem_cons]
    tauto
  | close k r c' hr hc' h =>
    rw [h.owned_eq, owned_abort] at hc
    simp only [Manager.owned, put, Table.keys_erase, List.mem_append, List.mem_filter] at hc
    exact Or.inl (List.mem_append.mpr (hc.imp id And.left))
  | orphan k r c' ab hd hr hc' hi h =>
    rw [h.owned_eq] at hc
    simp only [Manager.owned, detached, Table.keys_erase, List.mem_append, List.mem_filter] at hc
    exact Or.inl (List.mem_append.mpr (hc.imp id And.left))
  | free k r c' ab hd hr hc' hi h =>
    rw [h.owned_eq] at hc
    simp only [Manager.owned, detached, put, Table.keys_erase, List.mem_append, List.mem_filter] at hc
    exact Or.inl (List.mem_append.mpr (hc.imp id And.left))
  | leave h =>
    rw [h.owned_eq] at hc
    left
    rw [Site.leave] at hc
    dsimp only at hc
    split at hc <;> exact hc

lemma Does.tidy {d : Deed} {s s' : Site κ} (h : Does d s s') (hm : s.manager.Coherent)
    {batch : List SocketEvent} (hd : ∀ c ∈ d.dropped, ⟨c, .closed⟩ ∈ batch)
    (ha : ∀ c ∈ d.admitted, c ∈ awaiting batch)
    (ht : Tidy s.network batch s.manager.held s.manager.owned) :
    Tidy s'.network batch s'.manager.held s'.manager.owned := by
  -- First the network loses what the deed cuts, then the lists follow.
  have h₁ := (ht.foldl_close (d.cut s.manager)).of_sameTraffic h.sameTraffic
  refine h₁.of_lists (fun c hc ho => ?_) (fun c hc => ?_)
  · rcases h.mem_held hm hc with hkept | hcut | hdropped
    · exact hkept
    · rw [h.sameTraffic.opened, Network.isOpen_foldl_close] at ho
      simp [hcut] at ho
    · rw [h₁.ended c (List.mem_append_left _ (hd c hdropped))] at ho
      cases ho
  · exact (h.mem_owned hm hc).imp id (ha c)

lemma Does.not_mem_owned {d : Deed} {s s' : Site κ} (h : Does d s s') (hm : s.manager.Coherent)
    {c : SocketId} (hc : c ∈ d.dropped) : c ∉ s'.manager.owned := by
  have hone := hm.single c
  simp only [Manager.held, List.count_append] at hone
  cases h with
  | withdraw c' hc' h =>
    obtain rfl := List.mem_singleton.mp hc
    have hpos := List.count_pos_iff.mpr (Backlog.holds_iff.mp hc')
    rw [h.owned_eq, ← List.count_eq_zero]
    simp only [Manager.owned, put, Backlog.sockets_withdraw, List.count_append,
      List.count_erase_self]
    omega
  | orphan k r c' ab hd hr hc' hi h =>
    cases ab with
    | true => cases hc
    | false =>
      obtain rfl := List.mem_singleton.mp hc
      have hpos := List.count_pos_iff.mpr (hm.mem_keys hr hc')
      rw [h.owned_eq, ← List.count_eq_zero]
      simp only [Manager.owned, detached, Table.keys_erase, List.count_append, count_filter_ne,
        if_true]
      omega
  | free k r c' ab hd hr hc' hi h =>
    cases ab with
    | true => cases hc
    | false =>
      obtain rfl := List.mem_singleton.mp hc
      have hpos := List.count_pos_iff.mpr (hm.mem_keys hr hc')
      rw [h.owned_eq, ← List.count_eq_zero]
      simp only [Manager.owned, put, detached, Table.keys_erase, List.count_append,
        count_filter_ne, if_true]
      omega
  | keep h | tend k f hf h | enqueue c' hd ha h | shed p b hb h | refuse c' hd h
  | claim k a p b hb hc' hi h | close k r c' hr hc' h | dismiss k r hr hc' h | enter h | leave h
  | flush h => cases hc

/-! ### Events that were dealt with -/

/-- A connection that came in is pending or closed. -/
lemma mem_backlog_onAccepted (s : Site κ) (c l : SocketId) (hd : s.manager.depth = 0)
    (ho : (s.onAccepted c l).network.isOpen c = true) :
    c ∈ (s.onAccepted c l).manager.backlog.sockets := by
  have hclosed : ∀ t : Site κ, t.manager.depth = 0 → (t.abort c).network.isOpen c = false := by
    intro t ht
    rw [abort_eq_of_depth_eq_zero ht, Network.isOpen_close]
    simp
  obtain ⟨ds, hds, hall, -⟩ := s.did_judge hd
  have hd' : s.judge.2.manager.depth = 0 := by
    rw [hds.depth_eq fun d hmem => (hall d hmem).ne, hd]
  rw [onAccepted] at ho ⊢
  split at ho
  · exact absurd ho (Bool.eq_false_iff.mp (hclosed (s.note (.lateConnection c)) hd))
  · next hl =>
    rw [if_neg hl]
    split at ho
    · next s₁ hj => simp [recordOccupancy, note, count, put]
    · next reason s₁ hj =>
      rw [hj] at hd'
      refine absurd ho (Bool.eq_false_iff.mp (hclosed _ ?_))
      exact hd'

lemma not_mem_owned_onClosed (s : Site κ) (c : SocketId) (hd : s.manager.depth = 0)
    (hm : s.manager.Coherent) : c ∉ (s.onClosed c).manager.owned := by
  rcases s.onClosed_cases c hd (hm.record c) with h | ⟨h, r, hr, hc, h'⟩ | ⟨hb, hs, h⟩
  · exact h.not_mem_owned hm (List.mem_singleton_self c)
  · cases h' with
    | cons h₁ h₂ =>
      cases h₂ with
      | cons h₂ h₃ =>
        cases h₃
        refine h₂.not_mem_owned (h₁.coherent hm fun d => ?_) ?_
        · simpa [Deed.admitted] using hm.single d
        · split <;> exact List.mem_singleton_self c
  · rw [h, Manager.owned, List.mem_append, ← Backlog.holds_iff, hb, Table.mem_keys_iff, hs]
    simp

lemma Did.tidy {ds : List Deed} {s s' : Site κ} (h : Did ds s s') (hm : s.manager.Coherent)
    (hx : ∀ c, (ds.flatMap Deed.admitted).count c + s.manager.held.count c ≤ 1)
    {batch : List SocketEvent}
    (hd : ∀ d ∈ ds, (∀ c ∈ d.dropped, ⟨c, .closed⟩ ∈ batch) ∧ ∀ c ∈ d.admitted, c ∈ awaiting batch)
    (ht : Tidy s.network batch s.manager.held s.manager.owned) :
    Tidy s'.network batch s'.manager.held s'.manager.owned :=
  (h.invariant (P := fun s => Tidy s.network batch s.manager.held s.manager.owned) hm hx ht
    fun d hmem _ _ hdoes hm' ht' => hdoes.tidy hm' (hd d hmem).1 (hd d hmem).2 ht').2

end Site

section Jobs

variable {κ : Type}

lemma SocketEvent.Allows.due {s : Site κ} {e : SocketEvent} {d : Deed} (h : e.Allows s d)
    {batch : List SocketEvent} (he : e ∈ batch) :
    (∀ c ∈ d.dropped, ⟨c, .closed⟩ ∈ batch) ∧ ∀ c ∈ d.admitted, c ∈ awaiting batch := by
  refine ⟨fun c hc => ?_, fun c hc => ?_⟩
  · have hec : e = ⟨c, .closed⟩ := by
      cases d with
      | withdraw c' =>
        obtain rfl := List.mem_singleton.mp hc
        exact h
      | orphan k c' ab =>
        cases ab with
        | true => cases hc
        | false =>
          obtain rfl := List.mem_singleton.mp hc
          exact h
      | free k c' ab =>
        cases ab with
        | true => cases hc
        | false =>
          obtain rfl := List.mem_singleton.mp hc
          exact h.1
      | _ => cases hc
    exact hec ▸ he
  · have hec : e.accepted? = some c := by
      cases d with
      | enqueue c' =>
        obtain rfl := List.mem_singleton.mp hc
        exact h
      | _ => cases hc
    exact List.mem_filterMap.mpr ⟨e, he, hec⟩

lemma Agenda.Allows.due {s : Site κ} {a : Agenda} {d : Deed} (h : a.Allows s d) :
    (∀ c ∈ d.dropped, ⟨c, .closed⟩ ∈ a.batch) ∧ ∀ c ∈ d.admitted, c ∈ awaiting a.batch := by
  rcases a with (_ | ⟨e, es⟩) | _ | _
  · cases d <;> simp_all [Agenda.Allows, Deed.dropped, Deed.admitted]
  · exact SocketEvent.Allows.due (s := s) h (List.mem_cons_self ..)
  · cases d <;> simp_all [Agenda.Allows, Deed.dropped, Deed.admitted]
  · cases d <;> simp_all [Agenda.Allows, Deed.dropped, Deed.admitted]

lemma Agenda.tidy_next (s : Site κ) (a : Agenda) (hd : s.manager.depth = 0)
    (hm : s.manager.Coherent)
    (hx : ∀ c, (awaiting a.batch).count c + s.manager.held.count c ≤ 1)
    (ht : Tidy s.network a.batch s.manager.held s.manager.owned) :
    Tidy (a.next s).2.1.network ((a.next s).1.elim [] batch) (a.next s).2.1.manager.held
      (a.next s).2.1.manager.owned := by
  obtain ⟨ds, hds, hsub, hall⟩ := a.did_next s hd hm.record
  have hx' : ∀ c, (ds.flatMap Deed.admitted).count c + s.manager.held.count c ≤ 1 := by
    intro c
    have hc := hsub.count_le c
    have := hx c
    rw [List.count_append] at hc
    omega
  have h₁ := hds.tidy hm hx' (fun d hmem => (hall d hmem).due) ht
  cases a with
  | events es =>
    cases es with
    | nil => exact h₁
    | cons e es =>
      -- `h₁` still has the event in the batch: its connection must be dealt with before it goes.
      refine h₁.drop (fun c hc ho => ?_) (fun c hc => ?_)
      · obtain ⟨d, k⟩ := e
        cases k with
        | accepted l =>
          cases hc
          have hpending := s.mem_backlog_onAccepted d l hd ho
          exact List.mem_append_left _ (List.mem_append_left _ hpending)
        | received | sent | timer | poll | closed => cases hc
      · subst hc
        exact s.not_mem_owned_onClosed c hd hm
  | ends hs => cases hs <;> exact h₁
  | flush => exact h₁

end Jobs

namespace Moment

variable {κ : Type}

/-- There is at most one manager, and it was not released. -/
def Sole (w : Moment κ) : Prop := w.managers = [] ∨ ∃ m, w.managers = [some m]

def owned (w : Moment κ) : List SocketId := w.managers.flatMap (·.elim [] Manager.owned)

def InCustody (w : Moment κ) : Prop :=
  Tidy w.network (w.frames.flatMap (·.agenda.batch)) w.held w.owned

lemma held_of_managers {w : Moment κ} {m : Manager κ} (h : w.managers = [some m]) :
    w.held = m.held ∧ w.owned = m.owned := by
  simp [held, owned, h]

lemma Sole.of_set {w : Moment κ} {i : Nat} {s : Site κ} {x : Option (Manager κ)}
    (hs : w.site? i = some s)
    (h : w.managers.set i x = [] ∨ ∃ m, w.managers.set i x = [some m]) :
    w.managers = [some s.manager] ∧ w.managers.set i x = [x] ∧ ∃ m, x = some m := by
  obtain ⟨hm, -, -⟩ := (w.site?_eq_some_iff i s).mp hs
  rw [manager?_eq_some_iff] at hm
  generalize w.managers = ms at *
  rcases h with h | ⟨m, h⟩
  · rw [List.set_eq_nil_iff] at h
    subst h
    simp at hm
  · match ms, i with
    | [], _ => simp at hm
    | [y], 0 =>
      simp only [List.getElem?_cons_zero, Option.some.injEq] at hm
      simp only [List.set_cons_zero, List.cons.injEq, and_true] at h
      exact ⟨by rw [hm], rfl, m, h⟩
    | [y], i + 1 => simp at hm
    | y :: z :: ms, 0 => simp at h
    | y :: z :: ms, i + 1 =>
      have := congrArg List.length h
      simp at this

lemma Orderly.frames_of_sole {w : Moment κ} (hw : w.Orderly) {m : Manager κ}
    (hm : w.managers = [some m]) {f : Frame κ} {fs : List (Frame κ)} (hf : w.frames = f :: fs) :
    f.manager = 0 ∧ fs = [] := by
  have hz : ∀ g ∈ w.frames, g.manager = 0 := by
    intro g hg
    have := hw.known g hg
    rw [hm, List.length_singleton] at this
    omega
  have hf0 := hz f (by simp [hf])
  refine ⟨hf0, ?_⟩
  cases fs with
  | nil => rfl
  | cons g gs =>
    have hn := hw.turns
    rw [hf, List.map_cons, List.map_cons, List.nodup_cons] at hn
    exact absurd (by rw [hf0, hz g (by simp [hf])]; exact List.mem_cons_self ..) hn.1

lemma InCustody.of_site {w : Moment κ} {s : Site κ} {batch : List SocketEvent}
    (hm : w.managers = [some s.manager]) (hn : w.network = s.network)
    (hb : w.frames.flatMap (·.agenda.batch) = batch) :
    w.InCustody ↔ Tidy s.network batch s.manager.held s.manager.owned := by
  rw [InCustody, (held_of_managers hm).1, (held_of_managers hm).2, hn, hb]

lemma custody_put {w : Moment κ} {i : Nat} {s s' : Site κ} {ds : List Deed} {fs : List (Frame κ)}
    (hw : w.Orderly) (hs : w.site? i = some s) (hd : Site.Did ds s s')
    (hsole : (w.during i s' fs).Sole) (ht : w.Sole → w.InCustody)
    (hb : fs.flatMap (·.agenda.batch) = w.frames.flatMap (·.agenda.batch))
    (hds : ∀ d ∈ ds, d.admitted = [] ∧ d.dropped = []) :
    (w.during i s' fs).InCustody := by
  obtain ⟨hm, hm', -⟩ := Sole.of_set hs hsole
  obtain ⟨-, hn, -⟩ := (w.site?_eq_some_iff i s).mp hs
  have hcoh := hw.coherent_site hs
  have hold := (InCustody.of_site hm hn rfl).mp (ht (Or.inr ⟨_, hm⟩))
  rw [InCustody.of_site (s := s') hm' rfl hb]
  refine hd.tidy hcoh (fun c => ?_) (fun d hmem => ?_) hold
  · rw [List.flatMap_eq_nil_iff.mpr fun d hmem => (hds d hmem).1, List.count_nil, Nat.zero_add]
    exact hcoh.single c
  · rw [(hds d hmem).1, (hds d hmem).2]
    simp

lemma call_allows_dropped {s : Site κ} {c : Call Handle κ} {d : Deed} (h : c.Allows s d) :
    d.admitted = [] ∧ d.dropped = [] := by
  cases c <;> cases d <;> simp_all [Call.Allows, Deed.admitted, Deed.dropped]

lemma custody_proceed {w : Moment κ} (hw : w.Orderly) {i : Nat} {agenda : Agenda}
    {frames : List (Frame κ)} {s : Site κ} (hf : w.frames = ⟨i, agenda, none⟩ :: frames)
    (hs : w.site? i = some s) (hsole : (w.proceed i agenda frames s).2.Sole)
    (ht : w.Sole → w.InCustody) :
    (w.proceed i agenda frames s).2.InCustody := by
  obtain ⟨-, hd⟩ := hw.depth_eq_zero hf hs
  obtain ⟨-, hn, -⟩ := (w.site?_eq_some_iff i s).mp hs
  have hcoh := hw.coherent_site hs
  have hset : ∃ x, (w.proceed i agenda frames s).2.managers = w.managers.set i x := by
    rw [proceed]
    rcases agenda.next s with ⟨_ | a, s₁, _ | n⟩ <;> exact ⟨_, rfl⟩
  obtain ⟨x, hx⟩ := hset
  have hm := (Sole.of_set (x := x) hs (by rw [← hx]; exact hsole)).1
  obtain ⟨-, rfl⟩ := hw.frames_of_sole hm hf
  have hone : ∀ c, (awaiting agenda.batch).count c + s.manager.held.count c ≤ 1 := by
    intro c
    have hc := hw.single c
    rw [tokens, arriving, hf, (held_of_managers hm).1] at hc
    simp only [List.flatMap_cons, List.flatMap_nil, List.append_nil, List.count_append] at hc
    omega
  have hbatch : w.frames.flatMap (·.agenda.batch) = agenda.batch := by
    simp [hf]
  have hold := (InCustody.of_site hm hn hbatch).mp (ht (Or.inr ⟨_, hm⟩))
  have hnext := agenda.tidy_next s hd hcoh hone hold
  revert hsole hnext
  rw [proceed]
  rcases agenda.next s with ⟨_ | a, s₁, n⟩
  · intro hsole hnext
    exact (InCustody.of_site (s := s₁) (Sole.of_set hs hsole).2.1 rfl rfl).mpr hnext
  · cases n with
    | none =>
      intro hsole hnext
      exact (InCustody.of_site (s := s₁) (Sole.of_set hs hsole).2.1 rfl (List.append_nil _)).mpr hnext
    | some n =>
      intro hsole hnext
      exact (InCustody.of_site (s := s₁.enter) (Sole.of_set hs hsole).2.1 rfl
        (List.append_nil _)).mpr hnext

lemma custody_step {w w' : Moment κ} {mv : Move κ} {o : Outcome κ} (hw : w.Orderly)
    (h : Step w mv o w') (hmv : mv ≠ .network .poll) (hsole : w'.Sole)
    (ht : w.Sole → w.InCustody) : w'.InCustody := by
  cases h with
  | network a hact => exact Tidy.perform (ht hsole) fun ha => hmv (by rw [ha])
  | call i c s hact hs =>
    obtain ⟨ds, hds, hall⟩ := Site.did_call s c
    exact custody_put hw hs hds hsole ht rfl
      fun d hd => call_allows_dropped (hall d hd)
  | note n hact => exact ht hsole
  | create o hact =>
    -- A manager that is sole at its birth is the first, so nothing was held before.
    have hnil : w.managers = [] := by
      rcases hsole with h | ⟨m, h⟩
      · simp [Moment.create] at h
      · simpa [Moment.create] using congrArg List.length h
    have hold := ht (Or.inl hnil)
    have hh : (w.create o).held = w.held ∧ (w.create o).owned = w.owned := by
      simp [held, owned, Moment.create, hnil, Manager.held, Manager.owned, Manager.create,
        Backlog.sockets, Table.keys, Table.empty]
    rw [InCustody, hh.1, hh.2]
    exact hold
  | release i s hact hi hs =>
    obtain ⟨-, -, m, hm⟩ := Sole.of_set hs hsole
    cases hm
  | begin i s hact hi hs =>
    obtain ⟨hm, hm', -⟩ := Sole.of_set hs hsole
    obtain ⟨-, hn, -⟩ := (w.site?_eq_some_iff i s).mp hs
    have hnil : w.frames = [] := by
      cases hf : w.frames with
      | nil => rfl
      | cons f fs =>
        have hlt := lt_of_manager? (manager?_of_site? hs)
        have h0 := (hw.frames_of_sole hm hf).1
        rw [hm, List.length_singleton] at hlt
        rw [inTurn_eq_false_iff, hf, List.map_cons, List.mem_cons] at hi
        exact absurd (Or.inl (by omega)) hi
    have hold := (InCustody.of_site hm hn (show w.frames.flatMap (·.agenda.batch) = [] by simp [hnil])).mp
      (ht (Or.inr ⟨_, hm⟩))
    refine (InCustody.of_site (s := s.begin.2) hm' rfl ?_).mpr hold.poll
    show s.begin.1 ++ w.frames.flatMap (·.agenda.batch) = s.begin.1
    rw [hnil, List.flatMap_nil, List.append_nil]
  | proceed i agenda frames s hf hs => exact custody_proceed hw hf hs hsole ht
  | leave i agenda n frames s hf hs =>
    have hdoes : Site.Does .leave s s.leave := .leave (.refl _)
    refine custody_put hw hs hdoes.did hsole ht ?_ ?_
    · rw [hf, List.flatMap_cons, List.flatMap_cons]
    · simp [Deed.admitted, Deed.dropped]

lemma custody_initial (ports : PortSource) : (initial ports : Moment κ).InCustody :=
  ⟨fun c hc => by simp [initial, Network.initial, Network.isOpen, Table.contains] at hc,
    by simp [owned, initial], by simp [initial, Network.initial], trivial,
    fun c hc => by simp [initial, Network.initial, Network.isOpen, Table.contains] at hc⟩

lemma custody_run {ports : PortSource} {mvs : List (Move κ)} {es : History κ} {w : Moment κ}
    (hr : (initial ports).run mvs = some (es, w)) (hp : ∀ mv ∈ mvs, mv ≠ .network .poll)
    (hs : w.Sole) : w.InCustody := by
  -- A run may have made other managers and released them, so custody is claimed for sole ones only.
  refine (run_invariant (P := fun past w => w.Orderly ∧
    ((∀ e ∈ past, e.1 ≠ .network .poll) → w.Sole → w.InCustody))
    (fun past w mv o w' hw hstep => ?_) ⟨orderly_initial ports, fun _ _ => custody_initial ports⟩
    hr).2 (fun e he => ?_) hs
  · have hst := step_cases hstep
    refine ⟨(hst.stage hw.1).orderly hw.1, fun hpast hsole => ?_⟩
    exact custody_step hw.1 hst (hpast (mv, o) (by simp)) hsole
      (hw.2 fun e he => hpast e (by simp [he]))
  · exact hp e.1 (run_moves hr ▸ List.mem_map_of_mem he)

/-- Between two turns of a sole manager, the open connections are those whose arrival is queued, those
pending and those claimed, each in one way; what is pending or claimed is open or its end is queued;
and no abort is outstanding. -/
theorem nothing_leaks {ports : PortSource} {mvs : List (Move κ)} {es : History κ} {w : Moment κ}
    {m : Manager κ} (hr : (initial ports).run mvs = some (es, w))
    (hp : ∀ mv ∈ mvs, mv ≠ .network .poll) (hm : w.managers = [some m]) (hf : w.frames = []) :
    let arriving := {c | w.network.isOpen c = true ∧ ∃ l, ⟨c, .accepted l⟩ ∈ w.network.queue}
    let pending := {c | w.network.isOpen c = true ∧ c ∈ m.backlog.sockets}
    let claimed := {c | w.network.isOpen c = true ∧ c ∈ m.sockets.keys}
    {c | w.network.isOpen c = true} = arriving ∪ pending ∪ claimed ∧
      Disjoint arriving pending ∧ Disjoint arriving claimed ∧ Disjoint pending claimed ∧
      (∀ c, c ∈ m.backlog.sockets ∨ c ∈ m.sockets.keys →
        w.network.isOpen c = true ∨ ⟨c, .closed⟩ ∈ w.network.queue) ∧
      m.deferred = [] := by
  intro arriving pending claimed
  have hw := orderly_run hr
  have hs : w.site? 0 = some ⟨w.network, m, w.journal⟩ := by
    simp [site?, manager?, hm]
  have hd : m.depth = 0 := by
    have := hw.depth_site hs
    rwa [hf] at this
  have hdef : m.deferred = [] := (within_run hr hs).settled hd
  have ht : Tidy w.network [] m.held m.owned :=
    (InCustody.of_site (s := ⟨w.network, m, w.journal⟩) hm rfl (by simp [hf])).mp
      (custody_run hr hp (Or.inr ⟨m, hm⟩))
  have hone : (awaiting w.network.queue ++ (m.backlog.sockets ++ m.sockets.keys)).Nodup := by
    rw [List.nodup_iff_count_le_one]
    intro c
    have hc := hw.single c
    rw [tokens, Moment.arriving, hf, (held_of_managers hm).1] at hc
    simp only [Manager.held, List.count_append] at hc ⊢
    omega
  have hqueued : ∀ c ∈ awaiting w.network.queue, c ∉ m.backlog.sockets ++ m.sockets.keys :=
    fun c hc hc' => List.disjoint_of_nodup_append hone hc hc'
  have hpending : ∀ c ∈ m.backlog.sockets, c ∉ m.sockets.keys :=
    fun c hc hc' => List.disjoint_of_nodup_append hone.of_append_right hc hc'
  refine ⟨?_, ?_, ?_, ?_, fun c hc => ht.backed c (List.mem_append.mpr hc), hdef⟩
  · ext c
    constructor
    · intro hc
      rcases ht.found c hc with ha | hh
      · exact Or.inl (Or.inl ⟨hc, (mem_awaiting_iff _ _).mp ha⟩)
      · rw [Manager.held, hdef, List.append_nil, List.mem_append] at hh
        rcases hh with hb | hk
        · exact Or.inl (Or.inr ⟨hc, hb⟩)
        · exact Or.inr ⟨hc, hk⟩
    · rintro ((⟨hc, -⟩ | ⟨hc, -⟩) | ⟨hc, -⟩) <;> exact hc
  · apply Set.disjoint_left.mpr
    intro c hc hc'
    exact hqueued c ((mem_awaiting_iff _ _).mpr hc.2) (List.mem_append_left _ hc'.2)
  · apply Set.disjoint_left.mpr
    intro c hc hc'
    exact hqueued c ((mem_awaiting_iff _ _).mpr hc.2) (List.mem_append_right _ hc'.2)
  · apply Set.disjoint_left.mpr
    intro c hc hc'
    exact hpending c hc.2 hc'.2

/-- A second peer waits in the queue, and the first closed after it was claimed. -/
theorem nothing_leaks_after_peer_close : ∃ es w m,
    (initial .standard).run (arrival ++ [.begin 0, .proceed, .proceed, .proceed, .proceed,
      .call 0 .accept, .leave, .proceed, .network (.peerClose ⟨2⟩), .network (.connect 9000)]) =
        some (es, w) ∧
      w.managers = [some m] ∧ w.network.isOpen ⟨2⟩ = false ∧ ⟨2⟩ ∈ m.sockets.keys ∧
      ⟨⟨2⟩, .closed⟩ ∈ w.network.queue ∧
      {c | w.network.isOpen c = true} =
        {c | w.network.isOpen c = true ∧ ∃ l, ⟨c, .accepted l⟩ ∈ w.network.queue} ∪
        {c | w.network.isOpen c = true ∧ c ∈ m.backlog.sockets} ∪
        {c | w.network.isOpen c = true ∧ c ∈ m.sockets.keys} := by
  have hrun : ∃ es w m,
      (initial .standard).run (arrival ++ [.begin 0, .proceed, .proceed, .proceed, .proceed,
        .call 0 .accept, .leave, .proceed, .network (.peerClose ⟨2⟩), .network (.connect 9000)]) =
          some (es, w) ∧
        w.managers = [some m] ∧ w.frames = [] ∧ w.network.isOpen ⟨2⟩ = false ∧
        m.sockets.keys = [⟨2⟩] :=
    ⟨_, _, _, rfl, rfl, rfl, rfl, rfl⟩
  obtain ⟨es, w, m, hr, hm, hf, ho, hk⟩ := hrun
  obtain ⟨hall, -, -, -, hback, -⟩ := nothing_leaks hr (by simp [arrival]) hm hf
  have hmem : ⟨2⟩ ∈ m.sockets.keys := by
    rw [hk]
    exact List.mem_singleton_self _
  refine ⟨es, w, m, hr, hm, ho, hmem, ?_, hall⟩
  rcases hback ⟨2⟩ (Or.inr hmem) with h | h
  · rw [ho] at h
    cases h
  · exact h

end Moment

end BoundedStreams
