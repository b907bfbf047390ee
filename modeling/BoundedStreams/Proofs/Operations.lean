import BoundedStreams.Proofs.Arena
import BoundedStreams.Proofs.Deed
import BoundedStreams.Proofs.Run

/-! Each operation of a site, taken apart into deeds. -/

namespace BoundedStreams

namespace Call

variable {κ : Type}

/-- The deeds that a call at a site may consist of. -/
def Allows (s : Site κ) : Call Handle κ → Deed → Prop
  | _, .keep => True
  | .closeListener, .shed _ => True
  | .accept, .claim _ _ => True
  | .close h, .close k _ => k = h
  | .close h, .dismiss k => k = h
  | .arm h _ _, .tend k => k = h
  | .arm h want _, .dismiss k => k = h ∧ want.isEmpty = true ∧
      ∃ r, s.manager.streams.get? h = some r ∧ r.socket = none
  | .read h _, .tend k => k = h
  | _, _ => False

end Call

/-- The event that costs a stream its socket `c`: an arrival by which it is evicted, or its end. -/
def SocketEvent.Costs (e : SocketEvent) (c : SocketId) (abortive : Bool) : Prop :=
  if abortive then ∃ d, e.accepted? = some d else e = ⟨c, .closed⟩

/-- The deeds that the handling of an event may consist of. -/
def SocketEvent.Allows {κ : Type} (s : Site κ) (e : SocketEvent) : Deed → Prop
  | .keep => True
  | .tend _ => True
  | .refuse c => e.accepted? = some c
  | .enqueue c => e.accepted? = some c
  | .withdraw c => e = ⟨c, .closed⟩
  | .orphan _ c abortive => e.Costs c abortive
  | .free h c abortive => e.Costs c abortive ∧
      ∃ r, s.manager.streams.get? h = some r ∧ r.socket = some c ∧ r.interests.isEmpty = true
  | _ => False

namespace Site

variable {κ : Type}

/-! ### Calls -/

lemma does_openListener (s : Site κ) (callback : κ) : Does .keep s (s.openListener callback).2 := by
  have hb := s.network.sameTraffic_bind s.manager.port
  rw [openListener]
  dsimp only
  split
  · exact .keep (.refl s)
  · split
    · next cause network heq =>
      rw [heq] at hb
      exact .keep (.of_network rfl hb)
    · next socket port network heq =>
      rw [heq] at hb
      exact .keep ⟨rfl, rfl, rfl, rfl, rfl, rfl, rfl, hb⟩

lemma did_sheds (b : Backlog) (s : Site κ) (hb : s.manager.backlog = b) :
    Did (b.sockets.map .shed) s
      (b.sockets.foldl abort (s.put { s.manager with backlog := [] })) := by
  induction b generalizing s with
  | nil =>
    have : s.put { s.manager with backlog := [] } = s := by
      obtain ⟨n, m, j⟩ := s
      simp only [put] at hb ⊢
      rw [← hb]
    simpa [Backlog.sockets, this] using Did.nil s
  | cons p b ih =>
    have hs := Does.shed p b hb (Alike.refl _)
    refine .cons hs ?_
    have hback : ((s.put { s.manager with backlog := b }).abort p.socket).manager.backlog = b := by
      rw [abort]
      split <;> rfl
    -- The backlog may as well be emptied first, since an abort does not read it.
    have hcomm : ((s.put { s.manager with backlog := b }).abort p.socket).put
        { ((s.put { s.manager with backlog := b }).abort p.socket).manager with backlog := [] } =
        (s.put { s.manager with backlog := [] }).abort p.socket := by
      unfold abort put
      dsimp only
      split <;> rfl
    have h := ih _ hback
    rw [hcomm] at h
    exact h

lemma did_closeListener (s : Site κ) : ∃ ds, Did ds s s.closeListener ∧
    ∀ d ∈ ds, d = .keep ∨ ∃ c, d = .shed c := by
  rw [closeListener]
  split
  · exact ⟨[], .nil s, by simp⟩
  · next l hl =>
    let s₁ : Site κ := { s with
      network := s.network.closeListener l.socket
      manager := { s.manager with listener := none } }
    have h₁ : Does .keep s s₁ :=
      .keep ⟨rfl, rfl, rfl, rfl, rfl, rfl, rfl, s.network.sameTraffic_closeListener _⟩
    have h₂ := did_sheds s.manager.backlog s₁ rfl
    refine ⟨.keep :: (s.manager.backlog.sockets.map .shed ++ [.keep]),
      .cons h₁ (h₂.append (.cons (.keep (.of_eq ?_ ?_)) (.nil _))), ?_⟩
    · rfl
    · rfl
    intro d hd
    simp only [List.mem_cons, List.mem_append, List.mem_map, List.not_mem_nil, or_false] at hd
    rcases hd with rfl | ⟨c, -, rfl⟩ | rfl
    · exact Or.inl rfl
    · exact Or.inr ⟨c, rfl⟩
    · exact Or.inl rfl

lemma accept_eq_none_iff (s : Site κ) : s.accept.1 = none ↔
    s.manager.options.capacity ≤ s.manager.active ∨ s.manager.backlog = [] := by
  rw [accept]
  dsimp only
  split
  · next h => simp [h]
  · next h =>
    split
    · next hb => simp [Backlog.claim_eq_none_iff.mp hb]
    · next p b hb =>
      have : s.manager.backlog ≠ [] := by
        rintro h; rw [h] at hb; cases hb
      simp [h, this]

lemma does_accept (s : Site κ) : s.accept.1 = none ∧ Does .keep s s.accept.2 ∨
    ∃ k c, s.accept.1 = some k ∧ Does (.claim k c) s s.accept.2 := by
  rw [accept]
  dsimp only
  split
  · exact Or.inl ⟨rfl, .keep (.of_eq rfl rfl)⟩
  · next hc =>
    split
    · exact Or.inl ⟨rfl, .keep (.refl s)⟩
    · next p b hb =>
      have hb' : s.manager.backlog = p :: b := by
        cases h : s.manager.backlog with
        | nil => rw [h] at hb; cases hb
        | cons q c => rw [h] at hb; cases hb; rfl
      refine Or.inr ⟨_, p.socket, rfl, .claim _ _ p b hb' (by omega) rfl (.of_eq rfl rfl)⟩

lemma does_close (s : Site κ) (h : Handle) : Does .keep s (s.close h) ∨
    (∃ c, Does (.close h c) s (s.close h)) ∨ Does (.dismiss h) s (s.close h) := by
  rw [close]
  dsimp only
  split
  · exact Or.inl (.keep (.of_eq rfl rfl))
  · next r hr =>
    split
    · next c hc =>
      refine Or.inr (Or.inl ⟨c, .close h r c hr hc ?_⟩)
      refine (Alike.abort ?_ c).trans (.of_eq rfl rfl)
      exact ⟨rfl, rfl, rfl, rfl, rfl, rfl, rfl, .refl _⟩
    · next hc =>
      exact Or.inr (Or.inr (.dismiss h r hr hc ⟨rfl, rfl, rfl, rfl, rfl, rfl, rfl, .refl _⟩))

lemma does_releaseOrphan (s : Site κ) {h : Handle} {r : Stream κ}
    (hr : s.manager.streams.get? h = some r) (hc : r.socket = none) :
    Does (.dismiss h) s (s.releaseOrphan h) := by
  have hcont : s.manager.streams.contains h = true := by simp [Arena.contains, hr]
  rw [releaseOrphan]
  rw [if_pos hcont]
  exact .dismiss h r hr hc ⟨rfl, rfl, rfl, rfl, rfl, rfl, rfl, .refl _⟩

lemma alike_scheduleEnd (s : Site κ) (h : Handle) : s.Alike (s.put (s.manager.scheduleEnd h)) := by
  rw [Manager.scheduleEnd]
  split <;> exact ⟨rfl, rfl, rfl, rfl, rfl, rfl, rfl, .refl _⟩

lemma did_arm (s : Site κ) (h : Handle) (want : Interests) (callback : Option κ) :
    ∃ ds, Did ds s (s.arm h want callback).2 ∧
      ∀ d ∈ ds, Call.Allows s (.arm h want callback) d := by
  rw [arm]
  split
  · exact ⟨[.keep], Does.did (.keep (.of_eq rfl rfl)), by simp [Call.Allows]⟩
  · next r hr =>
    have ht := Does.tend (s := s) h (·.arm want callback) (fun _ => rfl) (Alike.refl _)
    dsimp only
    split
    · exact ⟨[.tend h], ht.did, by simp [Call.Allows]⟩
    · next hc =>
      have hc' : r.socket = none := by simpa using hc
      split
      · next hw =>
        have hr' : (s.manager.updateStream h (·.arm want callback)).streams.get? h =
            some (r.arm want callback) := by
          simp [Manager.updateStream, Arena.get?_update, hr]
        refine ⟨[.tend h, .dismiss h], .cons ht (does_releaseOrphan _ (r := r.arm want callback) hr' hc').did, ?_⟩
        simp [Call.Allows, hw, hr, hc']
      · exact ⟨[.tend h], (ht.trans_alike (alike_scheduleEnd _ h)).did, by simp [Call.Allows]⟩

lemma did_read (s : Site κ) (h : Handle) (k : Nat) : ∃ ds, Did ds s (s.read h k).2 ∧
    ∀ d ∈ ds, d = .keep ∨ d = .tend h := by
  rw [read]
  split
  · exact ⟨[.keep], Does.did (.keep (.of_eq rfl rfl)), by simp⟩
  · next r hr =>
    split
    · exact ⟨[], .nil s, by simp⟩
    · next c hc =>
      split
      · exact ⟨[], .nil s, by simp⟩
      · dsimp only
        refine ⟨[.tend h], Does.did (.tend h (fun r => { r with lastActivity := s.now })
          (fun _ => rfl) ⟨rfl, rfl, rfl, rfl, rfl, rfl, rfl, ?_⟩), by simp⟩
        have h₁ := s.network.sameTraffic_recv c k
        dsimp only
        split
        · exact h₁.trans (Network.sameTraffic_schedule _ _ _)
        · exact h₁

lemma does_write (s : Site κ) (h : Handle) (bytes : Bytes) : Does .keep s (s.write h bytes).2 := by
  rw [write]
  split
  · exact .keep (.of_eq rfl rfl)
  · split
    · exact .keep (.refl s)
    · dsimp only
      split
      · exact .keep (.refl s)
      · exact .keep (.of_network rfl (s.network.sameTraffic_update _ _))

lemma did_call (s : Site κ) (c : Call Handle κ) : ∃ ds, Did ds s (c.perform s).2 ∧
    ∀ d ∈ ds, c.Allows s d := by
  cases c with
  | openListener callback =>
    exact ⟨[.keep], (s.does_openListener callback).did, by simp [Call.Allows]⟩
  | closeListener =>
    obtain ⟨ds, hds, hall⟩ := s.did_closeListener
    refine ⟨ds, hds, fun d hd => ?_⟩
    rcases hall d hd with rfl | ⟨c, rfl⟩ <;> simp [Call.Allows]
  | port | state h | stats => exact ⟨[], .nil s, by simp⟩
  | accept =>
    rcases s.does_accept with ⟨-, h⟩ | ⟨k, c, -, h⟩
    · exact ⟨[.keep], h.did, by simp [Call.Allows]⟩
    · exact ⟨[.claim k c], h.did, by simp [Call.Allows]⟩
  | close h =>
    rcases s.does_close h with hd | ⟨c, hd⟩ | hd
    · exact ⟨[.keep], hd.did, by simp [Call.Allows]⟩
    · exact ⟨[.close h c], hd.did, by simp [Call.Allows]⟩
    · exact ⟨[.dismiss h], hd.did, by simp [Call.Allows]⟩
  | closeOutput h =>
    exact ⟨[.keep], Does.did (.keep (.of_eq rfl rfl)), by simp [Call.Allows]⟩
  | arm h want callback => exact s.did_arm h want callback
  | read h k =>
    obtain ⟨ds, hds, hall⟩ := s.did_read h k
    refine ⟨ds, hds, fun d hd => ?_⟩
    rcases hall d hd with rfl | rfl <;> simp [Call.Allows]
  | write h bytes => exact ⟨[.keep], (s.does_write h bytes).did, by simp [Call.Allows]⟩

/-! ### Jobs of a turn -/

lemma abort_eq_of_depth_eq_zero {s : Site κ} (hd : s.manager.depth = 0) (c : SocketId) :
    s.abort c = { s with network := s.network.close c } := if_pos hd

/-- Nothing, or the loss of a socket by a stream of the site. -/
def Loses (s : Site κ) (abortive : Bool) (d : Deed) : Prop :=
  d = .keep ∨ ∃ h c r, s.manager.streams.get? h = some r ∧ r.socket = some c ∧
    (d = .orphan h c abortive ∨ d = .free h c abortive ∧ r.interests.isEmpty = true)

lemma Loses.admitted_eq_nil {s : Site κ} {abortive : Bool} {d : Deed} (h : s.Loses abortive d) :
    d.admitted = [] := by
  rcases h with rfl | ⟨h, c, r, -, -, rfl | ⟨rfl, -⟩⟩ <;> rfl

lemma Loses.ne {s : Site κ} {abortive : Bool} {d : Deed} (h : s.Loses abortive d) :
    d ≠ .enter ∧ d ≠ .leave := by
  rcases h with rfl | ⟨h, c, r, -, -, rfl | ⟨rfl, -⟩⟩ <;> simp

lemma does_detach (s : Site κ) {h : Handle} {r : Stream κ} {c : SocketId} (abortive : Bool)
    (hd : s.manager.depth = 0) (hr : s.manager.streams.get? h = some r) (hc : r.socket = some c) :
    Does (if r.interests.isEmpty then .free h c abortive else .orphan h c abortive) s
      (s.detach h abortive) := by
  -- Outside a callback an abort is carried out at once, and so changes the network only.
  have habort : ∀ s' : Site κ, s'.manager.depth = 0 → (if abortive then s'.abort c else s') =
      { s' with network := if abortive then s'.network.close c else s'.network } := by
    intro s' hd'
    split
    · exact abort_eq_of_depth_eq_zero hd' c
    · rfl
  rw [detach]
  simp only [hr, hc]
  rw [habort]
  · cases hi : r.interests.isEmpty with
    | true =>
      apply Does.free h r c abortive hd hr hc hi
      exact ⟨rfl, rfl, rfl, rfl, rfl, rfl, rfl, .refl _⟩
    | false =>
      let s₁ : Site κ := (s.detached h c abortive).put { (s.detached h c abortive).manager with
        stagger := s.manager.stagger.closed s.now
        totals := { s.manager.totals with orphaned := s.manager.totals.orphaned + 1 } }
      have h₁ : (s.detached h c abortive).Alike s₁ :=
        ⟨rfl, rfl, rfl, rfl, rfl, rfl, rfl, .refl _⟩
      refine .orphan h r c abortive hd hr hc hi (h₁.trans ((alike_scheduleEnd s₁ h).trans ?_))
      exact .of_eq rfl rfl
  · exact hd

lemma loses_detach {s : Site κ} {h : Handle} {r : Stream κ} {c : SocketId} (abortive : Bool)
    (hr : s.manager.streams.get? h = some r) (hc : r.socket = some c) :
    s.Loses abortive (if r.interests.isEmpty then .free h c abortive else .orphan h c abortive) := by
  refine Or.inr ⟨h, c, r, hr, hc, ?_⟩
  split
  · next hi => exact Or.inr ⟨rfl, hi⟩
  · exact Or.inl rfl

lemma mem_candidates_iff (m : Manager κ) (c : Candidate) : c ∈ m.candidates ↔
    ∃ r, m.streams.get? c.stream = some r ∧ r.socket.isSome ∧ r.lastActivity = c.lastActivity := by
  obtain ⟨h, t⟩ := c
  simp only [Manager.candidates, List.mem_filterMap, Option.map_eq_some_iff, Candidate.mk.injEq]
  constructor
  · rintro ⟨⟨k, r⟩, hmem, c, hc, rfl, rfl⟩
    exact ⟨r, (Arena.mem_toList_iff _ _ _).mp hmem, Option.isSome_iff_exists.mpr ⟨c, hc⟩, rfl⟩
  · rintro ⟨r, hr, hs, rfl⟩
    obtain ⟨c, hc⟩ := Option.isSome_iff_exists.mp hs
    exact ⟨(h, r), (Arena.mem_toList_iff _ _ _).mpr hr, c, hc, rfl, rfl⟩

lemma did_evict (s : Site κ) (hd : s.manager.depth = 0) :
    ∃ ds, Did ds s s.evict.2 ∧ ∀ d ∈ ds, s.Loses true d := by
  rw [evict]
  dsimp only
  split
  · exact ⟨[], .nil s, by simp⟩
  · split
    · exact ⟨[.keep], Does.did (.keep (.of_eq rfl rfl)), by simp [Loses]⟩
    · next v hv =>
      obtain ⟨hv, -⟩ := Option.filter_eq_some_iff.mp hv
      obtain ⟨r, hr, hs, -⟩ := (mem_candidates_iff _ _).mp (Candidate.mem_of_oldest? hv)
      obtain ⟨c, hc⟩ := Option.isSome_iff_exists.mp hs
      let s₁ := ((s.note (.evicted v.stream (v.idleTime s.now))).put { s.manager with
        totals := { s.manager.totals with evicted := s.manager.totals.evicted + 1 } }).count
          (·.countEvicted)
      have h₁ : Does .keep s s₁ := .keep ⟨rfl, rfl, rfl, rfl, rfl, rfl, rfl, .refl _⟩
      refine ⟨_, .cons h₁ (s₁.does_detach true hd hr hc).did, ?_⟩
      intro d hmem
      simp only [List.mem_cons, List.not_mem_nil, or_false] at hmem
      rcases hmem with rfl | rfl
      · exact Or.inl rfl
      · exact loses_detach true hr hc

lemma did_judge (s : Site κ) (hd : s.manager.depth = 0) :
    ∃ ds, Did ds s s.judge.2 ∧ (∀ d ∈ ds, s.Loses true d) ∧
      (s.judge.1 = .ok () → s.judge.2.manager.admission = .ok ()) := by
  rw [judge]
  split
  · obtain ⟨ds, hds, hall⟩ := s.did_evict hd
    split
    · next s₁ he =>
      rw [he] at hds
      exact ⟨ds, hds, hall, id⟩
    · next s₁ he =>
      rw [he] at hds
      exact ⟨ds, hds, hall, by simp⟩
  · exact ⟨[], .nil s, by simp, id⟩

lemma Does.depth_eq {d : Deed} {s s' : Site κ} (h : Does d s s') (he : d ≠ .enter) (hl : d ≠ .leave) :
    s'.manager.depth = s.manager.depth := by
  have habort : ∀ (s : Site κ) (c : SocketId), (s.abort c).manager.depth = s.manager.depth := by
    intro s c
    rw [abort]
    split <;> rfl
  cases h with
  | keep h | tend k f hf h | enqueue c hd ha h | withdraw c hc h | refuse c hd h
  | claim k a p b hb hc hi h | dismiss k r hr hc h | orphan k r c ab hd hr hc hi h
  | free k r c ab hd hr hc hi h | flush h => exact h.depth
  | shed p b hb h | close k r c hr hc h => exact h.depth.trans (habort _ _)
  | enter h => exact absurd rfl he
  | leave h => exact absurd rfl hl

lemma Did.depth_eq {ds : List Deed} {s s' : Site κ} (h : Did ds s s')
    (hds : ∀ d ∈ ds, d ≠ .enter ∧ d ≠ .leave) : s'.manager.depth = s.manager.depth := by
  induction h with
  | nil _ => rfl
  | @cons d ds s s₁ s' hd _ ih =>
    have hd' := hds d (by simp)
    rw [ih fun e he => hds e (by simp [he]), hd.depth_eq hd'.1 hd'.2]

lemma did_onAccepted (s : Site κ) (c l : SocketId) (hd : s.manager.depth = 0) :
    ∃ ds, Did ds s (s.onAccepted c l) ∧ (ds.flatMap Deed.admitted).Sublist [c] ∧
      ∀ d ∈ ds, s.Loses true d ∨ d = .refuse c ∨ d = .enqueue c := by
  rw [onAccepted]
  split
  · refine ⟨[.refuse c], Does.did (.refuse c hd ?_), by simp [Deed.admitted], by simp⟩
    rw [abort_eq_of_depth_eq_zero (show (s.note (.lateConnection c)).manager.depth = 0 from hd)]
    exact .of_eq rfl rfl
  · obtain ⟨ds, hds, hall, hok⟩ := s.did_judge hd
    have hnone : ds.flatMap Deed.admitted = [] := by
      rw [List.flatMap_eq_nil_iff]
      exact fun d hmem => (hall d hmem).admitted_eq_nil
    have hd' : s.judge.2.manager.depth = 0 := by
      rw [hds.depth_eq fun d hmem => (hall d hmem).ne, hd]
    split
    · next s₁ hj =>
      rw [hj] at hds hok hd'
      refine ⟨ds ++ [.enqueue c], hds.append (Does.did (.enqueue c hd' (hok rfl) ?_)), ?_, ?_⟩
      · exact ⟨rfl, rfl, rfl, rfl, rfl, rfl, rfl, .refl _⟩
      · simp [hnone, Deed.admitted]
      · intro d hmem
        rcases List.mem_append.mp hmem with hmem | hmem
        · exact Or.inl (hall d hmem)
        · exact Or.inr (Or.inr (List.mem_singleton.mp hmem))
    · next reason s₁ hj =>
      rw [hj] at hds hd'
      refine ⟨ds ++ [.refuse c], hds.append (Does.did (.refuse c hd' ?_)), ?_, ?_⟩
      · dsimp only
        rw [abort_eq_of_depth_eq_zero]
        · exact ⟨rfl, rfl, rfl, rfl, rfl, rfl, rfl, .refl _⟩
        · exact hd'
      · simp [hnone, Deed.admitted]
      · intro d hmem
        rcases List.mem_append.mp hmem with hmem | hmem
        · exact Or.inl (hall d hmem)
        · exact Or.inr (Or.inl (List.mem_singleton.mp hmem))

lemma onClosed_cases (s : Site κ) (c : SocketId) (hd : s.manager.depth = 0)
    (hl : ∀ h, s.manager.sockets.get? c = some h →
      ∃ r, s.manager.streams.get? h = some r ∧ r.socket = some c) :
    Does (.withdraw c) s (s.onClosed c) ∨
    (∃ h r, s.manager.streams.get? h = some r ∧ r.socket = some c ∧
      Did [.keep, if r.interests.isEmpty then .free h c false else .orphan h c false] s
        (s.onClosed c)) ∨
    s.manager.backlog.holds c = false ∧ s.manager.sockets.get? c = none ∧ s.onClosed c = s := by
  rw [onClosed]
  split
  · next hh =>
    exact Or.inl (.withdraw c hh ⟨rfl, rfl, rfl, rfl, rfl, rfl, rfl, .refl _⟩)
  · next hh =>
    right
    split
    · next h hc =>
      obtain ⟨r, hr, hrc⟩ := hl h hc
      have h₁ : Does .keep s (s.note (.peerClosed h c)) := .keep (.of_eq rfl rfl)
      have h₂ := (s.note (.peerClosed h c)).does_detach false hd hr hrc
      exact Or.inl ⟨h, r, hr, hrc, .cons h₁ h₂.did⟩
    · next hc => exact Or.inr ⟨by simpa using hh, hc, rfl⟩

lemma does_notify (s : Site κ) (h : Handle) (callback : κ) (e : StreamEvent) :
    Does (.tend h) s (s.notify h callback e).1 :=
  .tend h (fun r => { r with notifiedTurn := some s.manager.turns }) (fun _ => rfl) (.of_eq rfl rfl)

lemma did_evaluate (s : Site κ) (h : Handle) : ∃ ds, Did ds s (s.evaluate h).1 ∧
    ∀ d ∈ ds, d = .tend h := by
  rw [evaluate]
  split
  · exact ⟨[], .nil s, by simp⟩
  · split
    · split
      · exact ⟨[], .nil s, by simp⟩
      · split
        · exact ⟨[], .nil s, by simp⟩
        · next e readiness hp =>
          have h₁ := Does.tend (s := s) h (fun r => { r with readiness := readiness }) (fun _ => rfl)
            (Alike.refl _)
          exact ⟨[.tend h, .tend h], .cons h₁ (does_notify _ h _ e).did, by simp⟩
    · exact ⟨[], .nil s, by simp⟩

lemma did_deliverEnd (s : Site κ) (h : Handle) : ∃ ds, Did ds s (s.deliverEnd h).1 ∧
    ∀ d ∈ ds, d = .keep ∨ d = .tend h := by
  rw [deliverEnd]
  split
  · exact ⟨[], .nil s, by simp⟩
  · split
    · split
      · exact ⟨[.keep], Does.did (.keep ⟨rfl, rfl, rfl, rfl, rfl, rfl, rfl, .refl _⟩), by simp⟩
      · split
        · exact ⟨[], .nil s, by simp⟩
        · next e readiness hp =>
          have h₁ := Does.tend (s := s) h (fun r => { r with readiness := readiness }) (fun _ => rfl)
            (Alike.refl _)
          refine ⟨[.tend h, .tend h], .cons (h₁.trans_alike (.of_eq ?_ ?_)) (does_notify _ h _ e).did,
            by simp⟩
          · rfl
          · rfl
    · exact ⟨[], .nil s, by simp⟩

lemma does_offerPending (s : Site κ) : Does .keep s s.offerPending.1 := by
  rw [offerPending]
  dsimp only
  split
  · exact .keep (.refl s)
  · split
    · split
      · exact .keep (.refl s)
      · next p b hb =>
        exact .keep ⟨rfl, Backlog.sockets_offer hb, rfl, rfl, rfl, rfl, rfl, .refl _⟩
    · exact .keep (.refl s)

lemma did_handle (s : Site κ) (e : SocketEvent) (hd : s.manager.depth = 0)
    (hl : ∀ h, s.manager.sockets.get? e.socket = some h →
      ∃ r, s.manager.streams.get? h = some r ∧ r.socket = some e.socket) :
    ∃ ds, Did ds s (s.handle e).1 ∧ (ds.flatMap Deed.admitted).Sublist e.accepted?.toList ∧
      ∀ d ∈ ds, e.Allows s d := by
  obtain ⟨c, k⟩ := e
  cases k with
  | accepted l =>
    obtain ⟨ds, hds, hsub, hall⟩ := s.did_onAccepted c l hd
    refine ⟨ds, hds, hsub, fun d hmem => ?_⟩
    rcases hall d hmem with (rfl | ⟨h, c', r, hr, hc', rfl | ⟨rfl, hi⟩⟩) | rfl | rfl
    · trivial
    · exact ⟨c, rfl⟩
    · exact ⟨⟨c, rfl⟩, r, hr, hc', hi⟩
    · rfl
    · rfl
  | closed =>
    rcases s.onClosed_cases c hd hl with h | ⟨h, r, hr, hc, h'⟩ | ⟨-, -, h⟩
    · exact ⟨[.withdraw c], h.did, by simp [Deed.admitted], by simp [SocketEvent.Allows]⟩
    · refine ⟨_, h', ?_, ?_⟩
      · split <;> simp [Deed.admitted]
      · simp only [List.mem_cons, List.not_mem_nil, or_false]
        rintro d (rfl | rfl)
        · trivial
        · split
          · next hi => exact ⟨rfl, r, hr, hc, hi⟩
          · exact rfl
    · refine ⟨[], ?_, by simp, by simp⟩
      show Did [] s (s.onClosed c)
      rw [h]
      exact .nil s
  | received | sent | timer | poll =>
    rw [handle]
    dsimp only
    split
    · next h _ =>
      obtain ⟨ds, hds, hall⟩ := s.did_evaluate h
      have hnone : ds.flatMap Deed.admitted = [] := by
        rw [List.flatMap_eq_nil_iff]
        intro d hmem
        rw [hall d hmem]
        rfl
      refine ⟨ds, hds, by rw [hnone]; exact List.nil_sublist _, fun d hmem => ?_⟩
      rw [hall d hmem]
      trivial
    · exact ⟨[], .nil s, List.nil_sublist _, by simp⟩

end Site

namespace Agenda

variable {κ : Type}

/-- The deeds that the next job of a turn may consist of. -/
def Allows (s : Site κ) : Agenda → Deed → Prop
  | .events (e :: _), d => e.Allows s d
  | .flush, .flush => True
  | _, .keep => True
  | .ends _, .tend _ => True
  | _, _ => False

lemma did_next (s : Site κ) (a : Agenda) (hd : s.manager.depth = 0)
    (hl : ∀ c h, s.manager.sockets.get? c = some h →
      ∃ r, s.manager.streams.get? h = some r ∧ r.socket = some c) :
    ∃ ds, Site.Did ds s (a.next s).2.1 ∧
      (ds.flatMap Deed.admitted ++ awaiting ((a.next s).1.elim [] batch)).Sublist
        (awaiting a.batch) ∧ ∀ d ∈ ds, a.Allows s d := by
  cases a with
  | events es =>
    cases es with
    | nil =>
      refine ⟨[.keep], Site.Does.did (.keep ⟨rfl, rfl, rfl, rfl, rfl, rfl, rfl, .refl _⟩), ?_, ?_⟩
      · simp [next, Deed.admitted, batch, awaiting]
      · simp [Allows]
    | cons e es =>
      obtain ⟨ds, hds, hsub, hall⟩ := s.did_handle e hd (hl e.socket)
      refine ⟨ds, hds, ?_, hall⟩
      have hcons : awaiting (e :: es) = e.accepted?.toList ++ awaiting es := by
        simp only [awaiting, List.filterMap_cons]
        cases e.accepted? <;> rfl
      simp only [next, Option.elim_some, batch, hcons]
      exact hsub.append_right _
  | ends hs =>
    cases hs with
    | nil =>
      refine ⟨[.keep], s.does_offerPending.did, ?_, by simp [Allows]⟩
      simp [next, Deed.admitted, batch, awaiting]
    | cons h hs =>
      obtain ⟨ds, hds, hall⟩ := s.did_deliverEnd h
      have hnone : ds.flatMap Deed.admitted = [] := by
        rw [List.flatMap_eq_nil_iff]
        intro d hmem
        rcases hall d hmem with rfl | rfl <;> rfl
      refine ⟨ds, hds, ?_, ?_⟩
      · simp [next, hnone, batch, awaiting]
      · intro d hmem
        rcases hall d hmem with rfl | rfl <;> trivial
  | flush =>
    refine ⟨[.flush], Site.Does.did (.flush (.refl _)), ?_, by simp [Allows]⟩
    simp [next, Deed.admitted, batch, awaiting]

end Agenda

/-! ### Notices -/

namespace Site

variable {κ : Type}

/-- A notice tells of a live stream or of a pending connection. -/
def Founded (s : Site κ) : Notice κ → Prop
  | .offer _ => s.manager.backlog ≠ []
  | .event _ h _ => (s.manager.streams.get? h).isSome

lemma founded_notify {s : Site κ} {h : Handle} (hs : (s.manager.streams.get? h).isSome) (cb : κ)
    (e : StreamEvent) : (s.notify h cb e).1.Founded (.event cb h e) := by
  simpa [Founded, notify, note, put, Manager.updateStream, Arena.get?_update] using hs

lemma founded_evaluate {s : Site κ} {h : Handle} {n : Notice κ} (hn : (s.evaluate h).2 = some n) :
    (s.evaluate h).1.Founded n := by
  rw [evaluate] at hn ⊢
  split at hn
  · cases hn
  · next r hr =>
    split at hn
    · split at hn
      · cases hn
      · next hturn =>
        split at hn
        · cases hn
        · next e readiness hp =>
          cases hn
          simp only [if_neg hturn]
          refine founded_notify ?_ _ _
          simp [put, Manager.updateStream, Arena.get?_update, hr]
    · cases hn

lemma founded_deliverEnd {s : Site κ} {h : Handle} {n : Notice κ}
    (hn : (s.deliverEnd h).2 = some n) :
    (s.deliverEnd h).1.Founded n := by
  rw [deliverEnd] at hn ⊢
  split at hn
  · cases hn
  · next r hr =>
    split at hn
    · split at hn
      · cases hn
      · next hturn =>
        split at hn
        · cases hn
        · next e readiness hp =>
          cases hn
          simp only [if_neg hturn]
          refine founded_notify ?_ _ _
          simp [note, put, Manager.updateStream, Arena.get?_update, hr]
    · cases hn

lemma founded_offerPending {s : Site κ} {n : Notice κ} (hn : s.offerPending.2 = some n) :
    s.offerPending.1.Founded n := by
  rw [offerPending] at hn ⊢
  dsimp only at hn ⊢
  split at hn
  · cases hn
  · split at hn
    · next hmay =>
      split at hn
      · cases hn
      · next p b hb =>
        cases hn
        simp only [if_pos hmay]
        intro hnil
        have hs := Backlog.sockets_offer hb
        have hb' : b = [] := hnil
        rw [hb'] at hs
        have : s.manager.backlog = [] := by simpa [Backlog.sockets] using hs.symm
        rw [this] at hb
        cases hb
    · cases hn

end Site

lemma Agenda.founded_next {κ : Type} {s : Site κ} {a : Agenda} {n : Notice κ}
    (hn : (a.next s).2.2 = some n) : (a.next s).2.1.Founded n := by
  cases a with
  | events es =>
    cases es with
    | nil => cases hn
    | cons e es =>
      obtain ⟨c, k⟩ := e
      cases k with
      | accepted l => cases hn
      | closed => cases hn
      | received | sent | timer | poll =>
        simp only [next, Site.handle] at hn ⊢
        split at hn
        · exact Site.founded_evaluate hn
        · cases hn
  | ends hs =>
    cases hs with
    | nil => exact Site.founded_offerPending hn
    | cons h hs => exact Site.founded_deliverEnd hn
  | flush => cases hn

end BoundedStreams
