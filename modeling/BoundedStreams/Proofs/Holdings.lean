import BoundedStreams.Proofs.Operations

/-! Who holds which connection. A manager holds a connection in its backlog, under a claimed stream or
among the aborts it has deferred, and in one of these places only. -/

namespace BoundedStreams

namespace Manager

variable {κ : Type}

def held (m : Manager κ) : List SocketId := m.backlog.sockets ++ m.sockets.keys ++ m.deferred

/-- The map of sockets, the records and the count of active streams tell the same. -/
structure Coherent (m : Manager κ) : Prop where
  arena : m.streams.Sound
  linked : ∀ h c, m.sockets.get? c = some h ↔ ∃ r, m.streams.get? h = some r ∧ r.socket = some c
  counted : m.active = m.sockets.size
  single : ∀ c, m.held.count c ≤ 1

lemma coherent_create (o : Options) (ports : PortSource) :
    (create o ports : Manager κ × PortSource).1.Coherent := by
  refine ⟨Arena.sound_empty, fun h c => ?_, rfl, fun c => Nat.zero_le _⟩
  simp [create]

lemma Coherent.mem_keys {m : Manager κ} (hm : m.Coherent) {h : Handle} {r : Stream κ} {c : SocketId}
    (hr : m.streams.get? h = some r) (hc : r.socket = some c) : c ∈ m.sockets.keys := by
  rw [Table.mem_keys_iff, (hm.linked h c).mpr ⟨r, hr, hc⟩]
  rfl

/-- A socket belongs to one stream only. -/
lemma Coherent.eq_of_socket {m : Manager κ} (hm : m.Coherent) {g h : Handle} {r q : Stream κ}
    {c : SocketId} (hr : m.streams.get? h = some r) (hc : r.socket = some c)
    (hq : m.streams.get? g = some q) (hqc : q.socket = some c) : g = h := by
  have hh := (hm.linked h c).mpr ⟨r, hr, hc⟩
  have hg := (hm.linked g c).mpr ⟨q, hq, hqc⟩
  rw [hh] at hg
  exact (Option.some.inj hg).symm

lemma Coherent.active_pos {m : Manager κ} (hm : m.Coherent) {h : Handle} {r : Stream κ} {c : SocketId}
    (hr : m.streams.get? h = some r) (hc : r.socket = some c) : 0 < m.active := by
  rw [hm.counted, Table.size_eq_length_keys]
  exact List.length_pos_of_mem (hm.mem_keys hr hc)

lemma Coherent.record {m : Manager κ} (hm : m.Coherent) :
    ∀ c h, m.sockets.get? c = some h → ∃ r, m.streams.get? h = some r ∧ r.socket = some c :=
  fun c h hc => (hm.linked h c).mp hc

lemma Coherent.nodup_held {m : Manager κ} (hm : m.Coherent) : m.held.Nodup :=
  List.nodup_iff_count_le_one.mpr hm.single

lemma Coherent.nodup_keys {m : Manager κ} (hm : m.Coherent) : m.sockets.keys.Nodup := by
  have h := hm.nodup_held
  rw [held] at h
  exact (List.nodup_append.mp (List.nodup_append.mp h).1).2.1

lemma Coherent.active_sub_one {m : Manager κ} (hm : m.Coherent) {h : Handle} {r : Stream κ}
    {c : SocketId} (hr : m.streams.get? h = some r) (hc : r.socket = some c) :
    m.active - 1 = (m.sockets.erase c).size := by
  -- The keys are distinct, so to erase the one is to filter it out.
  have hlen := List.length_erase_of_mem (hm.mem_keys hr hc)
  rw [hm.nodup_keys.erase_eq_filter] at hlen
  rw [Table.size_eq_length_keys, Table.keys_erase, hm.counted, Table.size_eq_length_keys, ← hlen]
  apply congrArg List.length
  apply List.filter_congr
  intro d _
  by_cases hd : d = c <;> simp [hd]

lemma Coherent.pending_not_mem_keys {m : Manager κ} (hm : m.Coherent) {p : Pending} {b : Backlog}
    (hb : m.backlog = p :: b) : p.socket ∉ m.sockets.keys := by
  intro hmem
  have h₁ := hm.single p.socket
  have h₂ := List.count_pos_iff.mpr hmem
  simp only [held, hb, Backlog.sockets, List.map_cons, List.count_append,
    List.count_cons_self] at h₁
  omega

lemma Coherent.of_eq {m m' : Manager κ} (hm : m.Coherent) (hr : m'.streams = m.streams)
    (hs : m'.sockets = m.sockets) (ha : m'.active = m.active) (hx : ∀ c, m'.held.count c ≤ 1) :
    m'.Coherent where
  arena := by rw [hr]; exact hm.arena
  linked := by rw [hr, hs]; exact hm.linked
  counted := by rw [ha, hs]; exact hm.counted
  single := hx

/-- Without its socket a record is told of nowhere else. -/
lemma linked_erase {a a' : Arena (Stream κ)} {t : Table SocketId Handle} {k : Handle} {c : SocketId}
    (hl : ∀ h d, t.get? d = some h ↔ ∃ r, a.get? h = some r ∧ r.socket = some d)
    (hk : t.get? c = some k)
    (ha : ∀ h d, (∃ r, a'.get? h = some r ∧ r.socket = some d) ↔
      h ≠ k ∧ ∃ r, a.get? h = some r ∧ r.socket = some d) :
    ∀ h d, (t.erase c).get? d = some h ↔ ∃ r, a'.get? h = some r ∧ r.socket = some d := by
  intro h d
  rw [Table.get?_erase, ha, ← hl]
  by_cases hcd : c = d
  · subst hcd
    simp only [if_true, hk, Option.some.injEq, reduceCtorEq, false_iff, not_and]
    exact fun hne he => hne he.symm
  · rw [if_neg hcd]
    constructor
    · intro hd
      refine ⟨?_, hd⟩
      rintro rfl
      obtain ⟨r, hr, hrd⟩ := (hl h d).mp hd
      obtain ⟨r', hr', hrc⟩ := (hl h c).mp hk
      rw [hr] at hr'
      cases hr'
      rw [hrd] at hrc
      exact hcd (Option.some.inj hrc).symm
    · exact fun hd => hd.2

end Manager

namespace Site

variable {κ : Type}

lemma Alike.held_eq {s s' : Site κ} (h : s.Alike s') : s'.manager.held = s.manager.held := by
  unfold Manager.held
  rw [h.pending, h.sockets, h.deferred]

lemma Alike.coherent {s s' : Site κ} (h : s.Alike s') (hm : s.manager.Coherent) :
    s'.manager.Coherent :=
  hm.of_eq h.streams h.sockets h.active fun c => h.held_eq ▸ hm.single c

lemma count_filter_ne (l : List SocketId) (c d : SocketId) :
    (l.filter (· ≠ c)).count d = if c = d then 0 else l.count d := by
  by_cases h : c = d
  · subst h
    simp [List.count_eq_zero]
  · rw [if_neg h, List.count_filter]
    simpa using Ne.symm h

lemma count_filter_ne_add_le {l : List SocketId} {c : SocketId} (hc : c ∈ l) (d : SocketId) :
    (l.filter (· ≠ c)).count d + [c].count d ≤ l.count d := by
  rw [count_filter_ne]
  by_cases h : c = d
  · subst h
    simpa using List.count_pos_iff.mpr hc
  · simp [h]

lemma abort_frame (s : Site κ) (c : SocketId) : (s.abort c).manager.streams = s.manager.streams ∧
    (s.abort c).manager.sockets = s.manager.sockets ∧
    (s.abort c).manager.active = s.manager.active := by
  rw [abort]
  split <;> exact ⟨rfl, rfl, rfl⟩

lemma leave_frame (s : Site κ) : s.leave.manager.streams = s.manager.streams ∧
    s.leave.manager.sockets = s.manager.sockets ∧ s.leave.manager.active = s.manager.active := by
  rw [Site.leave]
  dsimp only
  split <;> exact ⟨rfl, rfl, rfl⟩

lemma count_held_abort_le (s : Site κ) (c d : SocketId) :
    (s.abort c).manager.held.count d ≤ s.manager.held.count d + [c].count d := by
  rw [abort]
  split
  · exact Nat.le_add_right _ _
  · simp only [put, Manager.held, List.count_append]
    omega

lemma Does.count_held_le {d : Deed} {s s' : Site κ} (h : Does d s s') (hm : s.manager.Coherent)
    (c : SocketId) : s'.manager.held.count c ≤ d.admitted.count c + s.manager.held.count c := by
  cases h with
  | keep h => rw [h.held_eq]; exact Nat.le_add_left _ _
  | tend k f hf h =>
    rw [h.held_eq]
    simp [put, Manager.updateStream, Manager.held]
  | enqueue c' hd ha h =>
    rw [h.held_eq]
    simp only [put, Manager.held, Backlog.sockets_push, List.count_append, Deed.admitted]
    omega
  | withdraw c' hc h =>
    rw [h.held_eq]
    have hle : (s.manager.backlog.sockets.erase c').count c ≤ s.manager.backlog.sockets.count c :=
      List.Sublist.count_le c List.erase_sublist
    simp only [put, Manager.held, Backlog.sockets_withdraw, List.count_append]
    omega
  | shed p b hb h =>
    rw [h.held_eq]
    apply Nat.le_trans (count_held_abort_le _ _ c)
    have hp : s.manager.backlog.sockets.count c = [p.socket].count c + b.sockets.count c := by
      rw [hb, ← List.count_append]
      rfl
    simp only [put, Manager.held, List.count_append]
    omega
  | refuse c' hd h => rw [h.held_eq]; exact Nat.le_add_left _ _
  | claim k a p b hb hc hi h =>
    rw [h.held_eq]
    have hp : s.manager.backlog.sockets.count c = [p.socket].count c + b.sockets.count c := by
      rw [hb, ← List.count_append]
      rfl
    have hfresh := hm.pending_not_mem_keys hb
    simp only [put, Manager.held, Table.keys_set_of_not_mem _ _ _ hfresh, List.count_append]
    omega
  | close k r c' hr hc h =>
    rw [h.held_eq]
    apply Nat.le_trans (count_held_abort_le _ _ c)
    have hle := count_filter_ne_add_le (hm.mem_keys hr hc) c
    simp only [put, Manager.held, Table.keys_erase, List.count_append]
    omega
  | dismiss k r hr hc h => rw [h.held_eq]; exact Nat.le_add_left _ _
  | orphan k r c' ab hd hr hc hi h =>
    rw [h.held_eq]
    have hle := count_filter_ne_add_le (hm.mem_keys hr hc) c
    simp only [detached, Manager.held, Table.keys_erase, List.count_append]
    omega
  | free k r c' ab hd hr hc hi h =>
    rw [h.held_eq]
    have hle := count_filter_ne_add_le (hm.mem_keys hr hc) c
    simp only [put, detached, Manager.held, Table.keys_erase, List.count_append]
    omega
  | enter h => rw [h.held_eq]; exact Nat.le_add_left _ _
  | leave h =>
    rw [h.held_eq]
    rw [Site.leave]
    dsimp only
    split
    · simp only [Site.flush, put, Manager.held, List.count_append, List.count_nil]
      omega
    · exact Nat.le_add_left _ _
  | flush h =>
    rw [h.held_eq]
    simp only [Site.flush, Manager.held, List.count_append, List.count_nil]
    omega

lemma Does.coherent {d : Deed} {s s' : Site κ} (h : Does d s s') (hm : s.manager.Coherent)
    (hx : ∀ c, d.admitted.count c + s.manager.held.count c ≤ 1) : s'.manager.Coherent := by
  have hsingle : ∀ c, s'.manager.held.count c ≤ 1 :=
    fun c => Nat.le_trans (h.count_held_le hm c) (hx c)
  cases h with
  | keep h => exact h.coherent hm
  | tend k f hf h =>
    refine ⟨?_, ?_, ?_, hsingle⟩
    · rw [h.streams]; exact hm.arena.update k f
    · intro j c
      rw [h.streams, h.sockets]
      simp only [put, Manager.updateStream, Arena.get?_update]
      rw [hm.linked]
      by_cases hj : k = j
      · simp only [hj, if_true, Option.map_eq_some_iff]
        constructor
        · rintro ⟨r, hr, hc⟩; exact ⟨f r, ⟨r, hr, rfl⟩, by rw [hf, hc]⟩
        · rintro ⟨_, ⟨r, hr, rfl⟩, hc⟩; exact ⟨r, hr, by rw [← hf, hc]⟩
      · simp [hj]
    · rw [h.active, h.sockets]; exact hm.counted
  | enqueue c hd ha h => exact hm.of_eq h.streams h.sockets h.active hsingle
  | withdraw c hc h => exact hm.of_eq h.streams h.sockets h.active hsingle
  | shed p b hb h =>
    obtain ⟨h₁, h₂, h₃⟩ := abort_frame (s.put { s.manager with backlog := b }) p.socket
    exact hm.of_eq (h.streams.trans h₁) (h.sockets.trans h₂) (h.active.trans h₃) hsingle
  | refuse c hd h => exact hm.of_eq h.streams h.sockets h.active hsingle
  | claim k a p b hb hc hi h =>
    have hfresh := hm.pending_not_mem_keys hb
    have hget := Arena.get?_insert hm.arena (.claimed p.socket s.now)
    have hnone := Arena.get?_insert_self_eq_none hm.arena (.claimed p.socket s.now)
    have hsound := hm.arena.insert (.claimed p.socket s.now)
    rw [hi] at hget hnone hsound
    refine ⟨?_, ?_, ?_, hsingle⟩
    · rw [h.streams]; exact hsound
    · intro j c
      rw [h.streams, h.sockets]
      simp only [put] at hget ⊢
      rw [Table.get?_set, hget]
      by_cases hc : p.socket = c
      · subst hc
        simp only [if_true, Option.some.injEq]
        constructor
        · rintro rfl; exact ⟨_, if_pos rfl, rfl⟩
        · rintro ⟨r, hr, hrc⟩
          by_cases hkj : k = j
          · exact hkj
          · rw [if_neg hkj] at hr
            exact absurd (hm.mem_keys hr hrc) hfresh
      · rw [if_neg hc, hm.linked]
        by_cases hkj : k = j
        · subst hkj
          simp [hnone, Stream.claimed, hc]
        · simp [hkj]
    · rw [h.active, h.sockets]
      simp only [put]
      rw [Table.size_eq_length_keys, Table.keys_set_of_not_mem _ _ _ hfresh, hm.counted,
        Table.size_eq_length_keys]
      simp
  | close k r c hr hc h =>
    obtain ⟨h₁, h₂, h₃⟩ := abort_frame (s.put { s.manager with
      streams := s.manager.streams.remove k
      sockets := s.manager.sockets.erase c
      active := s.manager.active - 1 }) c
    refine ⟨?_, ?_, ?_, hsingle⟩
    · rw [h.streams, h₁]; exact hm.arena.remove k
    · rw [h.streams, h.sockets, h₁, h₂]
      refine Manager.linked_erase hm.linked ((hm.linked k c).mpr ⟨r, hr, hc⟩) fun j d => ?_
      simp only [put, Arena.get?_remove]
      by_cases hj : k = j <;> simp [hj, eq_comm]
    · rw [h.active, h.sockets, h₂, h₃]; exact hm.active_sub_one hr hc
  | dismiss k r hr hc h =>
    refine ⟨?_, ?_, ?_, hsingle⟩
    · rw [h.streams]; exact hm.arena.remove k
    · intro j d
      rw [h.streams, h.sockets]
      simp only [put, Arena.get?_remove]
      rw [hm.linked]
      by_cases hj : k = j
      · subst hj; simp [hr, hc]
      · simp [hj]
    · rw [h.active, h.sockets]; exact hm.counted
  | orphan k r c ab hd hr hc hi h =>
    refine ⟨?_, ?_, ?_, hsingle⟩
    · rw [h.streams]; exact hm.arena.update k _
    · rw [h.streams, h.sockets]
      refine Manager.linked_erase hm.linked ((hm.linked k c).mpr ⟨r, hr, hc⟩) fun j d => ?_
      simp only [detached, Arena.get?_update]
      by_cases hj : k = j
      · subst hj; simp [hr]
      · simp [hj, Ne.symm hj]
    · rw [h.active, h.sockets]; exact hm.active_sub_one hr hc
  | free k r c ab hd hr hc hi h =>
    refine ⟨?_, ?_, ?_, hsingle⟩
    · rw [h.streams]; exact (hm.arena.update k _).remove k
    · rw [h.streams, h.sockets]
      refine Manager.linked_erase hm.linked ((hm.linked k c).mpr ⟨r, hr, hc⟩) fun j d => ?_
      simp only [put, detached, Arena.get?_remove, Arena.get?_update]
      by_cases hj : k = j
      · subst hj; simp
      · simp [hj, Ne.symm hj]
    · rw [h.active, h.sockets]; exact hm.active_sub_one hr hc
  | enter h => exact h.coherent ⟨hm.arena, hm.linked, hm.counted, hm.single⟩
  | leave h =>
    obtain ⟨h₁, h₂, h₃⟩ := s.leave_frame
    exact hm.of_eq (h.streams.trans h₁) (h.sockets.trans h₂) (h.active.trans h₃) hsingle
  | flush h => exact hm.of_eq h.streams h.sockets h.active hsingle

/-! ### Deeds one after another -/

lemma Did.invariant {P : Site κ → Prop} {ds : List Deed} {s s' : Site κ} (h : Did ds s s')
    (hm : s.manager.Coherent)
    (hx : ∀ c, (ds.flatMap Deed.admitted).count c + s.manager.held.count c ≤ 1) (hP : P s)
    (hstep : ∀ d ∈ ds, ∀ s s', Does d s s' → s.manager.Coherent → P s → P s') :
    s'.manager.Coherent ∧ P s' := by
  induction h with
  | nil s => exact ⟨hm, hP⟩
  | @cons d ds s s₁ s' hd _ ih =>
    simp only [List.flatMap_cons, List.count_append] at hx
    have hle := hd.count_held_le hm
    refine ih (hd.coherent hm ?_) ?_ (hstep d (by simp) s s₁ hd hm hP)
      fun e he => hstep e (by simp [he])
    · intro c
      have := hx c
      omega
    · intro c
      have := hx c
      have := hle c
      omega

lemma Did.coherent {ds : List Deed} {s s' : Site κ} (h : Did ds s s') (hm : s.manager.Coherent)
    (hx : ∀ c, (ds.flatMap Deed.admitted).count c + s.manager.held.count c ≤ 1) :
    s'.manager.Coherent :=
  (h.invariant (P := fun _ => True) hm hx trivial fun _ _ _ _ _ _ _ => trivial).1

lemma Did.count_held_le {ds : List Deed} {s s' : Site κ} (h : Did ds s s')
    (hm : s.manager.Coherent)
    (hx : ∀ c, (ds.flatMap Deed.admitted).count c + s.manager.held.count c ≤ 1) (c : SocketId) :
    s'.manager.held.count c ≤ (ds.flatMap Deed.admitted).count c + s.manager.held.count c := by
  induction h with
  | nil s => exact Nat.le_add_left _ _
  | @cons d ds s s₁ s' hd _ ih =>
    simp only [List.flatMap_cons, List.count_append] at hx ⊢
    have hle := hd.count_held_le hm
    have h₁ := ih (hd.coherent hm fun c => by have := hx c; omega) fun c => by
      have := hx c
      have := hle c
      omega
    have := hle c
    omega

end Site

end BoundedStreams
