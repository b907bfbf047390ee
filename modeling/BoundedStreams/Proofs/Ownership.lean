import BoundedStreams.Proofs.Ledger

/-! The records, the map of sockets and the count of active streams of a manager tell the same, and no
connection is in two places, also not with two managers. -/

namespace BoundedStreams

namespace Manager

variable {κ : Type}

/-- The sockets of the records, in slot order. -/
def ownSockets (m : Manager κ) : List SocketId := m.streams.toList.filterMap (·.2.socket)

lemma mem_ownSockets_iff (m : Manager κ) (c : SocketId) :
    c ∈ m.ownSockets ↔ ∃ h r, m.streams.get? h = some r ∧ r.socket = some c := by
  simp only [ownSockets, List.mem_filterMap, Prod.exists]
  constructor
  · rintro ⟨h, r, hmem, hc⟩
    exact ⟨h, r, (Arena.mem_toList_iff _ _ _).mp hmem, hc⟩
  · rintro ⟨h, r, hr, hc⟩
    exact ⟨h, r, (Arena.mem_toList_iff _ _ _).mpr hr, hc⟩

lemma Coherent.nodup_ownSockets {m : Manager κ} (hm : m.Coherent) : m.ownSockets.Nodup := by
  rw [ownSockets, List.Nodup, List.pairwise_filterMap]
  have hn := m.streams.nodup_handles
  rw [Arena.handles, List.Nodup, List.pairwise_map] at hn
  apply hn.imp_of_mem
  rintro ⟨h, r⟩ ⟨h', r'⟩ hr hr' hne c hc c' hc' rfl
  rw [Arena.mem_toList_iff] at hr hr'
  exact hne (hm.eq_of_socket hr' hc' hr hc)

lemma Coherent.perm_ownSockets {m : Manager κ} (hm : m.Coherent) :
    m.ownSockets.Perm m.sockets.keys := by
  apply (List.perm_ext_iff_of_nodup hm.nodup_ownSockets hm.nodup_keys).mpr
  intro c
  rw [mem_ownSockets_iff, Table.mem_keys_iff, Option.isSome_iff_exists]
  constructor
  · rintro ⟨h, r, hr, hc⟩
    exact ⟨h, (hm.linked h c).mpr ⟨r, hr, hc⟩⟩
  · rintro ⟨h, hc⟩
    exact ⟨h, hm.record c h hc⟩

lemma Coherent.active_eq {m : Manager κ} (hm : m.Coherent) :
    m.active = m.streams.toList.countP (·.2.socket.isSome) := by
  rw [hm.counted, Table.size_eq_length_keys, ← hm.perm_ownSockets.length_eq, ownSockets,
    List.length_filterMap_eq_countP]

end Manager

namespace Moment

variable {κ : Type}

/-- Every manager's books agree, no manager counts below zero, and each connection is in at most one
backlog, map or list of deferred aborts. -/
theorem books_agree {ports : PortSource} {mvs : List (Move κ)} {es : History κ} {w : Moment κ}
    (hr : (initial ports).run mvs = some (es, w)) :
    (∀ i m, w.manager? i = some m →
      (∀ h c, (∃ r, m.streams.get? h = some r ∧ r.socket = some c) ↔ m.sockets.get? c = some h) ∧
      m.active = m.streams.toList.countP (·.2.socket.isSome) ∧ m.active = m.sockets.size ∧
      ∀ h r c, m.streams.get? h = some r → r.socket = some c → 0 < m.active) ∧
    (w.managers.flatMap (·.elim [] fun m => m.backlog.sockets ++ m.sockets.keys ++ m.deferred)).Nodup := by
  have hw := orderly_run hr
  refine ⟨fun i m hm => ?_, ?_⟩
  · have hc := hw.coherent i m hm
    exact ⟨fun h c => (hc.linked h c).symm, hc.active_eq, hc.counted, fun h r c => hc.active_pos⟩
  · rw [List.nodup_iff_count_le_one]
    intro c
    have hs := hw.single c
    rw [tokens, List.count_append] at hs
    exact Nat.le_trans (Nat.le_add_left _ _) hs

theorem books_agree_in_callback : ∃ es w m,
    (initial .standard).run (arrival ++
      [.begin 0, .proceed, .proceed, .proceed, .proceed, .call 0 .accept]) = some (es, w) ∧
      w.manager? 0 = some m ∧ m.depth = 1 ∧
      (∃ r, m.streams.get? ⟨0, 1⟩ = some r ∧ r.socket = some ⟨2⟩) ∧ 0 < m.active ∧
      (w.managers.flatMap (·.elim [] fun m =>
        m.backlog.sockets ++ m.sockets.keys ++ m.deferred)).Nodup := by
  have hrun : ∃ es w m, (initial .standard).run (arrival ++
      [.begin 0, .proceed, .proceed, .proceed, .proceed, .call 0 .accept]) = some (es, w) ∧
      w.manager? 0 = some m ∧ m.depth = 1 ∧ m.sockets.get? ⟨2⟩ = some ⟨0, 1⟩ :=
    ⟨_, _, _, rfl, rfl, rfl, rfl⟩
  obtain ⟨es, w, m, hr, hm, hd, hc⟩ := hrun
  obtain ⟨hbooks, hn⟩ := books_agree hr
  obtain ⟨hlinked, -, -, hpos⟩ := hbooks 0 m hm
  obtain ⟨r, hget, hsock⟩ := (hlinked ⟨0, 1⟩ ⟨2⟩).mpr hc
  exact ⟨es, w, m, hr, hm, hd, ⟨r, hget, hsock⟩, hpos _ r _ hget hsock, hn⟩

end Moment

end BoundedStreams
