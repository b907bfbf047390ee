import BoundedStreams.Proofs.Traffic

/-! A network and the events taken from it, against what is known of its connections elsewhere. -/

namespace BoundedStreams

/-- Each arrival among the events is of an open connection, or its end comes later. -/
def Followed (n : Network) : List SocketEvent → Prop
  | [] => True
  | e :: es => (∀ c, e.accepted? = some c → n.isOpen c = true ∨ ⟨c, .closed⟩ ∈ es) ∧ Followed n es

lemma Followed.append {n n' : Network} {es fs : List SocketEvent} (h : Followed n es)
    (hf : Followed n' fs) (ho : ∀ c, n.isOpen c = true → n'.isOpen c = true ∨ ⟨c, .closed⟩ ∈ fs) :
    Followed n' (es ++ fs) := by
  induction es with
  | nil => exact hf
  | cons e es ih =>
    refine ⟨fun c hc => ?_, ih h.2⟩
    rcases h.1 c hc with hopen | hmem
    · rcases ho c hopen with hopen' | hmem
      · exact Or.inl hopen'
      · exact Or.inr (List.mem_append_right _ hmem)
    · exact Or.inr (List.mem_append_left _ hmem)

lemma Followed.of_awaiting {n : Network} {es : List SocketEvent} (h : Followed n es) {c : SocketId}
    (hc : c ∈ awaiting es) : n.isOpen c = true ∨ ⟨c, .closed⟩ ∈ es := by
  induction es with
  | nil => simp [awaiting] at hc
  | cons e es ih =>
    rw [awaiting, List.mem_filterMap] at hc
    obtain ⟨f, hf, hfc⟩ := hc
    rcases List.mem_cons.mp hf with rfl | hf
    · exact (h.1 c hfc).imp id (List.mem_cons_of_mem _)
    · exact (ih h.2 (List.mem_filterMap.mpr ⟨f, hf, hfc⟩)).imp id (List.mem_cons_of_mem _)

lemma followed_of_awaiting_eq_nil (n : Network) {es : List SocketEvent} (h : awaiting es = []) :
    Followed n es := by
  induction es with
  | nil => trivial
  | cons e es ih =>
    rw [awaiting, List.filterMap_eq_nil_iff] at h
    refine ⟨fun c hc => ?_, ih (List.filterMap_eq_nil_iff.mpr fun f hf => h f (by simp [hf]))⟩
    rw [h e (by simp)] at hc
    cases hc

/-- Every open connection is on its way or held, and every owned one is open or its end is on its way;
the events after `batch` are those in the queue. -/
structure Tidy (n : Network) (batch : List SocketEvent) (held owned : List SocketId) : Prop where
  found : ∀ c, n.isOpen c = true → c ∈ awaiting (batch ++ n.queue) ∨ c ∈ held
  backed : ∀ c ∈ owned, n.isOpen c = true ∨ ⟨c, .closed⟩ ∈ batch ++ n.queue
  ended : ∀ c, ⟨c, .closed⟩ ∈ batch ++ n.queue → n.isOpen c = false
  followed : Followed n (batch ++ n.queue)
  known : ∀ c, n.isOpen c = true ∨ ⟨c, .closed⟩ ∈ batch ++ n.queue → c.num < n.nextId

namespace Tidy

variable {n n' : Network} {batch : List SocketEvent} {held owned held' owned' : List SocketId}

lemma grow (h : Tidy n batch held owned) (es : List SocketEvent) (hq : n'.queue = n.queue ++ es)
    (hf : Followed n' es) (ho : ∀ c, n.isOpen c = true → n'.isOpen c = true ∨ ⟨c, .closed⟩ ∈ es)
    (hn : ∀ c, n'.isOpen c = true →
      n.isOpen c = true ∨ c ∈ awaiting es ∧ n.nextId ≤ c.num ∧ c.num < n'.nextId)
    (hc : ∀ c, ⟨c, .closed⟩ ∈ es → n.isOpen c = true ∧ n'.isOpen c = false)
    (hid : n.nextId ≤ n'.nextId) : Tidy n' batch held owned := by
  have happ : batch ++ n'.queue = (batch ++ n.queue) ++ es := by rw [hq, List.append_assoc]
  have hknown : ∀ c, n.isOpen c = true ∨ ⟨c, .closed⟩ ∈ batch ++ n.queue → c.num < n'.nextId :=
    fun c hc => Nat.lt_of_lt_of_le (h.known c hc) hid
  refine ⟨fun c hopen => ?_, fun c hmem => ?_, fun c hmem => ?_, ?_, fun c hcase => ?_⟩
  · rw [happ, awaiting_append, List.mem_append]
    rcases hn c hopen with hold | ⟨hnew, -⟩
    · rcases h.found c hold with hw | hh
      · exact Or.inl (Or.inl hw)
      · exact Or.inr hh
    · exact Or.inl (Or.inr hnew)
  · rw [happ, List.mem_append]
    rcases h.backed c hmem with hold | hend
    · exact (ho c hold).imp id Or.inr
    · exact Or.inr (Or.inl hend)
  · rw [happ, List.mem_append] at hmem
    rcases hmem with hend | hend
    -- A connection whose end is queued was known, so it is not the one that came.
    · rw [Bool.eq_false_iff]
      intro hopen
      rcases hn c hopen with hold | ⟨-, hle, -⟩
      · rw [h.ended c hend] at hold
        cases hold
      · have := h.known c (Or.inr hend)
        omega
    · exact (hc c hend).2
  · rw [happ]
    exact h.followed.append hf ho
  · rw [happ, List.mem_append] at hcase
    rcases hcase with hopen | hend | hend
    · rcases hn c hopen with hold | ⟨-, -, hlt⟩
      · exact hknown c (Or.inl hold)
      · exact hlt
    · exact hknown c (Or.inr hend)
    · exact hknown c (Or.inl (hc c hend).1)

lemma of_sameTraffic (h : Tidy n batch held owned) (ht : n.SameTraffic n') :
    Tidy n' batch held owned :=
  h.grow [] (by rw [ht.queue, List.append_nil]) trivial
    (fun c hc => Or.inl ((ht.opened c).trans hc)) (fun c hc => Or.inl ((ht.opened c).symm.trans hc))
    (fun c hc => absurd hc List.not_mem_nil) ht.nextId

lemma close (h : Tidy n batch held owned) (c : SocketId) : Tidy (n.close c) batch held owned := by
  have hmem : ∀ d, ⟨d, .closed⟩ ∈ (if n.isOpen c then [(⟨c, .closed⟩ : SocketEvent)] else []) ↔
      d = c ∧ n.isOpen c = true := by
    intro d
    split
    · next ho => simp [ho]
    · next ho => simp [ho]
  refine h.grow _ (n.queue_close c) (followed_of_awaiting_eq_nil _ ?_) (fun d hd => ?_)
    (fun d hd => ?_) (fun d hd => ?_) ?_
  · split <;> rfl
  · rw [Network.isOpen_close, hmem]
    by_cases hcd : c = d
    · subst hcd
      exact Or.inr ⟨rfl, hd⟩
    · simp [hcd, hd]
  · rw [Network.isOpen_close, Bool.and_eq_true] at hd
    exact Or.inl hd.2
  · obtain ⟨rfl, hopen⟩ := (hmem d).mp hd
    refine ⟨hopen, ?_⟩
    rw [Network.isOpen_close]
    simp
  · exact Nat.le_of_eq (n.nextId_close c).symm

lemma foldl_close (h : Tidy n batch held owned) (cs : List SocketId) :
    Tidy (cs.foldl Network.close n) batch held owned := by
  induction cs generalizing n with
  | nil => exact h
  | cons c cs ih => exact ih (h.close c)

lemma perform (h : Tidy n batch held owned) {a : Network.Action} (ha : a ≠ .poll) :
    Tidy (n.perform a).2 batch held owned := by
  have hs := n.shift_perform a
  generalize (n.perform a).2 = n' at hs
  cases hs with
  | quiet ht => exact h.of_sameTraffic ht
  | connect p l =>
    have hopen : ∀ c, Network.isOpen { n with
        nextId := n.nextId + 1
        connections := n.connections.set ⟨n.nextId⟩ .opened
        queue := n.queue ++ [⟨⟨n.nextId⟩, .accepted l⟩] } c =
          (decide (⟨n.nextId⟩ = c) || n.isOpen c) := by
      intro c
      simp only [Network.isOpen, Table.contains, Table.get?_set]
      by_cases hc : ⟨n.nextId⟩ = c <;> simp [hc]
    refine h.grow [⟨⟨n.nextId⟩, .accepted l⟩] rfl ⟨fun c hc => Or.inl ?_, trivial⟩
      (fun c hc => Or.inl ?_) (fun c hc => ?_) (fun c hc => ?_) (Nat.le_succ _)
    · cases hc
      rw [hopen]
      simp
    · rw [hopen, hc, Bool.or_true]
    · rw [hopen, Bool.or_eq_true, decide_eq_true_eq] at hc
      rcases hc with rfl | hc
      · exact Or.inr ⟨by simp [awaiting, SocketEvent.accepted?], Nat.le_refl _, Nat.lt_succ_self _⟩
      · exact Or.inl hc
    · simp at hc
  | @peerSend s bs n₁ ht =>
    refine (h.of_sameTraffic ht).grow [⟨s, .received⟩] rfl (followed_of_awaiting_eq_nil _ rfl)
      (fun c hc => Or.inl hc) (fun c hc => Or.inl hc) (fun c hc => ?_) (Nat.le_refl _)
    simp at hc
  | close c => exact h.close c
  | poll => exact absurd rfl ha

lemma poll (h : Tidy n [] held owned) : Tidy n.poll.2 n.poll.1 held owned := by
  -- What a poll adds to the queue is neither an arrival nor an end.
  obtain ⟨ticks, heq, ht⟩ := n.poll_eq
  have hq : n.poll.2.queue = [] := rfl
  have hw : awaiting (n.poll.1 ++ n.poll.2.queue) = awaiting ([] ++ n.queue) := by
    rw [hq, List.append_nil, n.awaiting_poll, List.nil_append]
  have hend : ∀ c, ⟨c, .closed⟩ ∈ n.poll.1 ++ n.poll.2.queue ↔ ⟨c, .closed⟩ ∈ [] ++ n.queue := by
    intro c
    rw [hq, List.append_nil, heq, List.nil_append, List.mem_append]
    exact ⟨fun hc => hc.elim id fun hc => absurd rfl (ht _ hc).2, Or.inl⟩
  refine ⟨fun c hc => ?_, fun c hc => ?_, fun c hc => ?_, ?_, fun c hc => ?_⟩
  · rw [hw]
    exact h.found c (n.isOpen_poll c ▸ hc)
  · rw [n.isOpen_poll, hend]
    exact h.backed c hc
  · rw [n.isOpen_poll]
    exact h.ended c ((hend c).mp hc)
  · rw [hq, List.append_nil, heq]
    have hnone : awaiting ticks = [] := by
      have := n.awaiting_poll
      rw [heq, awaiting_append] at this
      exact List.append_right_eq_self.mp this
    exact Followed.append h.followed (followed_of_awaiting_eq_nil _ hnone) fun c hc =>
      Or.inl ((n.isOpen_poll c).trans hc)
  · rw [n.isOpen_poll, hend] at hc
    exact h.known c hc

lemma of_lists (h : Tidy n batch held owned)
    (hh : ∀ c ∈ held, n.isOpen c = true → c ∈ held')
    (ho : ∀ c ∈ owned', c ∈ owned ∨ c ∈ awaiting batch) : Tidy n batch held' owned' := by
  refine ⟨fun c hc => ?_, fun c hc => ?_, h.ended, h.followed, h.known⟩
  · exact (h.found c hc).imp id fun hmem => hh c hmem hc
  · rcases ho c hc with hmem | hmem
    · exact h.backed c hmem
    · apply h.followed.of_awaiting
      rw [awaiting_append]
      exact List.mem_append_left _ hmem

lemma drop {e : SocketEvent} (h : Tidy n (e :: batch) held owned)
    (ha : ∀ c, e.accepted? = some c → n.isOpen c = true → c ∈ held)
    (hc : ∀ c, e = ⟨c, .closed⟩ → c ∉ owned) : Tidy n batch held owned := by
  refine ⟨fun c ho => ?_, fun c hmem => ?_, fun c hend => ?_, h.followed.2, fun c hcase => ?_⟩
  · rcases h.found c ho with hw | hh
    · rw [List.cons_append, awaiting, List.mem_filterMap] at hw
      obtain ⟨f, hf, hfc⟩ := hw
      rcases List.mem_cons.mp hf with rfl | hf
      · exact Or.inr (ha c hfc ho)
      · exact Or.inl (List.mem_filterMap.mpr ⟨f, hf, hfc⟩)
    · exact Or.inr hh
  · rcases h.backed c hmem with ho | hend
    · exact Or.inl ho
    · rcases List.mem_cons.mp hend with he | hend
      · exact absurd hmem (hc c he.symm)
      · exact Or.inr hend
  · exact h.ended c (List.mem_cons_of_mem _ hend)
  · exact h.known c (hcase.imp id (List.mem_cons_of_mem _))

end Tidy

end BoundedStreams
