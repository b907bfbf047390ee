import BoundedStreams.Proofs.Exchange

/-! Streams of one manager share a map, an arena, a queue of ends and a network. What is done to one of
them is confined to it. -/

namespace BoundedStreams

namespace Site

variable {κ : Type}

/-- All that the sites differ in belongs to the stream under `h`. -/
structure Confined (h : Handle) (s s' : Site κ) : Prop where
  records : ∀ g, g ≠ h → s'.manager.streams.get? g = s.manager.streams.get? g
  sockets : ∀ c g, g ≠ h → (s'.manager.sockets.get? c = some g ↔ s.manager.sockets.get? c = some g)
  backlog : s'.manager.backlog = s.manager.backlog
  listener : s'.manager.listener = s.manager.listener
  totals : s'.manager.totals = s.manager.totals
  ending : s'.manager.ending.filter (· ≠ h) = s.manager.ending.filter (· ≠ h)
  deferred : s'.manager.deferred = s.manager.deferred ∨
    ∃ r c, s.manager.streams.get? h = some r ∧ r.socket = some c ∧
      s'.manager.deferred = s.manager.deferred ++ [c]
  connections : ∀ c, (∀ r, s.manager.streams.get? h = some r → r.socket ≠ some c) →
    s'.network.get? c = s.network.get? c

lemma confined_of_manager_eq {h : Handle} {s s' : Site κ} (hm : s'.manager = s.manager)
    (hc : ∀ c, (∀ r, s.manager.streams.get? h = some r → r.socket ≠ some c) →
      s'.network.get? c = s.network.get? c) : Confined h s s' :=
  ⟨fun g _ => by rw [hm], fun c g _ => by rw [hm], by rw [hm], by rw [hm], by rw [hm], by rw [hm],
    .inl (by rw [hm]), hc⟩

lemma manager_abort (s : Site κ) (c : SocketId) : (s.abort c).manager = { s.manager with
    deferred := s.manager.deferred ++ if s.manager.depth = 0 then [] else [c] } := by
  rw [abort]
  split
  · rw [List.append_nil]
  · rfl

lemma filter_ne_filter_ne (h : Handle) (hs : List Handle) :
    (hs.filter (· ≠ h)).filter (· ≠ h) = hs.filter (· ≠ h) := by
  rw [List.filter_filter]
  simp

lemma scheduleEnd_eq (m : Manager κ) (h : Handle) : ∃ hs, m.scheduleEnd h = { m with ending := hs } ∧
    hs.filter (· ≠ h) = m.ending.filter (· ≠ h) := by
  rw [Manager.scheduleEnd]
  split
  · exact ⟨m.ending, rfl, rfl⟩
  · exact ⟨_, rfl, by simp⟩

lemma manager_close_attached {s : Site κ} {h : Handle} {r : Stream κ} {c : SocketId}
    (hr : s.manager.streams.get? h = some r) (hc : r.socket = some c) :
    (s.close h).manager = { s.manager with
      streams := s.manager.streams.remove h
      sockets := s.manager.sockets.erase c
      active := s.manager.active - 1
      stagger := s.manager.stagger.closed s.now
      deferred := s.manager.deferred ++ if s.manager.depth = 0 then [] else [c] } := by
  simp only [close, hr, hc]
  exact manager_abort _ c

lemma manager_close_orphan {s : Site κ} {h : Handle} {r : Stream κ}
    (hr : s.manager.streams.get? h = some r) (hc : r.socket = none) :
    (s.close h).manager = { s.manager with
      streams := s.manager.streams.remove h
      ending := s.manager.ending.filter (· ≠ h) } := by
  simp only [close, hr, hc]
  rfl

lemma get?_remove_of_ne (m : Manager κ) {g h : Handle} (hg : g ≠ h) :
    (m.streams.remove h).get? g = m.streams.get? g :=
  (m.streams.get?_remove h g).trans (if_neg (Ne.symm hg))

lemma get?_update_of_ne (m : Manager κ) {g h : Handle} (hg : g ≠ h) (f : Stream κ → Stream κ) :
    (m.updateStream h f).streams.get? g = m.streams.get? g :=
  (m.streams.get?_update h g f).trans (if_neg (Ne.symm hg))

/-- The socket of a stream is in the map under that stream only. -/
lemma get?_erase_socket {m : Manager κ} (hm : m.Coherent) {h : Handle} {r : Stream κ} {c : SocketId}
    (hr : m.streams.get? h = some r) (hc : r.socket = some c) (d : SocketId) {g : Handle}
    (hg : g ≠ h) : (m.sockets.erase c).get? d = some g ↔ m.sockets.get? d = some g := by
  rw [Table.get?_erase]
  split
  · next hd =>
    rw [← hd, (hm.linked h c).mpr ⟨r, hr, hc⟩, Option.some.injEq]
    exact iff_of_false (by simp) (Ne.symm hg)
  · rfl

lemma confined_close {s : Site κ} (hm : s.manager.Coherent) (h : Handle) :
    Confined h s (s.close h) := by
  have hnet := fun c hc => s.get?_close_of_ne (c := c) (h := h) hc
  cases hr : s.manager.streams.get? h with
  | none =>
    refine confined_of_manager_eq ?_ hnet
    simp only [close, hr]
    rfl
  | some r =>
    cases hc : r.socket with
    | none =>
      have hman := manager_close_orphan hr hc
      refine ⟨fun g hg => ?_, ?_, ?_, ?_, ?_, ?_, .inl ?_, hnet⟩ <;> rw [hman]
      · exact get?_remove_of_ne s.manager hg
      · exact fun _ _ _ => .rfl
      · exact filter_ne_filter_ne h s.manager.ending
    | some c =>
      have hman := manager_close_attached hr hc
      refine ⟨fun g hg => ?_, fun d g hg => ?_, ?_, ?_, ?_, ?_, ?_, hnet⟩ <;> rw [hman]
      · exact get?_remove_of_ne s.manager hg
      · exact get?_erase_socket hm hr hc d hg
      · dsimp only
        split
        · exact .inl (List.append_nil _)
        · exact .inr ⟨r, c, hr, hc, rfl⟩

lemma confined_arm (s : Site κ) (h : Handle) (want : Interests) (callback : Option κ) :
    Confined h s (s.arm h want callback).2 := by
  have hupdate := fun g (hg : g ≠ h) => get?_update_of_ne s.manager hg (·.arm want callback)
  rw [arm]
  cases hr : s.manager.streams.get? h with
  | none => exact confined_of_manager_eq rfl fun _ _ => rfl
  | some r =>
    have hkept : Confined h s (s.put (s.manager.updateStream h (·.arm want callback))) :=
      ⟨hupdate, fun _ _ _ => .rfl, rfl, rfl, rfl, rfl, .inl rfl, fun _ _ => rfl⟩
    dsimp only
    split
    · exact hkept
    · split
      · rw [releaseOrphan]
        split
        · refine ⟨fun g hg => ?_, fun _ _ _ => .rfl, rfl, rfl, rfl, ?_, .inl rfl, fun _ _ => rfl⟩
          · exact (get?_remove_of_ne (s.manager.updateStream h _) hg).trans (hupdate g hg)
          · exact filter_ne_filter_ne h s.manager.ending
        · exact hkept
      · obtain ⟨hs, he, hfilter⟩ :=
          scheduleEnd_eq (s.put (s.manager.updateStream h (·.arm want callback))).manager h
        dsimp only
        rw [he]
        exact ⟨hupdate, fun _ _ _ => .rfl, rfl, rfl, rfl, hfilter, .inl rfl, fun _ _ => rfl⟩

lemma confined_read (s : Site κ) (h : Handle) (k : Nat) : Confined h s (s.read h k).2 := by
  have hnet := fun c hc => s.get?_read_of_ne (c := c) (h := h) hc k
  have hman : (s.read h k).2.manager = s.manager ∨ (s.read h k).2.manager =
      s.manager.updateStream h fun r => { r with lastActivity := s.now } := by
    rw [read]
    split
    · exact .inl rfl
    · split
      · exact .inl rfl
      · split
        · exact .inl rfl
        · exact .inr rfl
  rcases hman with hman | hman
  · exact confined_of_manager_eq hman hnet
  · refine ⟨fun g hg => ?_, ?_, ?_, ?_, ?_, ?_, .inl ?_, hnet⟩ <;> rw [hman]
    · exact get?_update_of_ne s.manager hg _
    · exact fun _ _ _ => .rfl
    · rfl
    · rfl
    · rfl
    · rfl
    · rfl

lemma confined_write (s : Site κ) (h : Handle) (bytes : Bytes) :
    Confined h s (s.write h bytes).2 := by
  refine confined_of_manager_eq ?_ fun c hc => s.get?_write_of_ne hc bytes
  rw [write]
  split
  · rfl
  · split
    · rfl
    · dsimp only
      split <;> rfl

lemma confined_call {s : Site κ} (hm : s.manager.Coherent) {h : Handle} {call : Call Handle κ}
    (hu : call.uses h = true) : Confined h s (call.perform s).2 := by
  cases call with
  | close g =>
    obtain rfl : g = h := by simpa [Call.uses] using hu
    exact confined_close hm g
  | arm g want callback =>
    obtain rfl : g = h := by simpa [Call.uses] using hu
    exact s.confined_arm g want callback
  | read g k =>
    obtain rfl : g = h := by simpa [Call.uses] using hu
    exact s.confined_read g k
  | write g bytes =>
    obtain rfl : g = h := by simpa [Call.uses] using hu
    exact s.confined_write g bytes
  | openListener callback | closeListener | port | accept | closeOutput g | state g | stats => cases hu

end Site

namespace Moment

variable {κ : Type}

/-- Whatever is read from, written to, armed or closed, inside a callback or outside: other streams, the
backlog, the listener, the totals, the other ends that wait, in their order, and the connections that
are not of this stream stay as they were. So do all other managers and what is left of each turn. -/
theorem streams_apart {ports : PortSource} {mvs : List (Move κ)} {es : History κ} {w : Moment κ}
    {i : Nat} {s : Site κ} {h : Handle} {call : Call Handle κ}
    (hr : (initial ports).run mvs = some (es, w)) (hact : w.mayAct = true) (hs : w.site? i = some s)
    (hu : call.uses h = true) :
    ∃ reply w' s', w.step (.call i call) = some (.call reply, w') ∧ w'.site? i = some s' ∧
      Site.Confined h s s' ∧ (∀ j, j ≠ i → w'.manager? j = w.manager? j) ∧ w'.frames = w.frames :=
  ⟨_, _, _, step_call hact hs call, site?_put hs _,
    Site.confined_call ((orderly_run hr).coherent_site hs) hu,
    fun _ hj => w.manager?_put_of_ne (Ne.symm hj) _, rfl⟩

/-- Two streams are claimed in one callback, and the first of them is closed before it returns. -/
def twoClaimed : List (Move Unit) :=
  [.create ⟨some 9000, 2, 2, 0, 0, 0, 64, 0⟩, .call 0 (.openListener ()), .network (.connect 9000),
    .network (.connect 9000), .begin 0, .proceed, .proceed, .proceed, .proceed, .proceed, .proceed,
    .call 0 .accept, .call 0 .accept]

theorem streams_apart_twoClaimed : ∃ es w s reply w' s' r,
    (initial .standard).run twoClaimed = some (es, w) ∧ w.site? 0 = some s ∧ s.manager.depth = 1 ∧
      s.manager.streams.get? ⟨1, 1⟩ = some r ∧ r.socket = some ⟨3⟩ ∧
      w.step (.call 0 (.close ⟨0, 1⟩)) = some (.call reply, w') ∧ w'.site? 0 = some s' ∧
      Site.Confined ⟨0, 1⟩ s s' ∧ s'.manager.streams.get? ⟨1, 1⟩ = some r ∧
      s'.network.get? ⟨3⟩ = s.network.get? ⟨3⟩ := by
  have hrun : ∃ es w s r q, (initial .standard).run twoClaimed = some (es, w) ∧ w.mayAct = true ∧
      w.site? 0 = some s ∧ s.manager.depth = 1 ∧ s.manager.streams.get? ⟨1, 1⟩ = some r ∧
      r.socket = some ⟨3⟩ ∧ s.manager.streams.get? ⟨0, 1⟩ = some q ∧ q.socket = some ⟨2⟩ :=
    ⟨_, _, _, _, _, rfl, rfl, rfl, rfl, rfl, rfl, rfl, rfl⟩
  obtain ⟨es, w, s, r, q, hr, hact, hs, hd, hget, hsocket, hq, hqs⟩ := hrun
  have huse : Call.uses ⟨0, 1⟩ (.close ⟨0, 1⟩ : Call Handle Unit) = true := rfl
  obtain ⟨reply, w', s', hstep, hs', hconf, -, -⟩ := streams_apart hr hact hs huse
  refine ⟨es, w, s, reply, w', s', r, hr, hs, hd, hget, hsocket, hstep, hs', hconf, ?_, ?_⟩
  · rw [hconf.records ⟨1, 1⟩ (by decide), hget]
  · refine hconf.connections ⟨3⟩ fun q' hq' => ?_
    rw [hq] at hq'
    cases hq'
    simp [hqs]

end Moment

end BoundedStreams
