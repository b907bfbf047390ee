import BoundedStreams.Proofs.Bystander
import BoundedStreams.Proofs.Confinement
import BoundedStreams.Proofs.WakeUp

/-! What a notification promises to a callback that acts on it at once. The levels are compared when the
callback is called, so what happened since the poll makes no notification stale. -/

namespace BoundedStreams

lemma Stream.due?_told {κ : Type} (n : Network) (r : Stream κ) (e : StreamEvent) (turn : Nat) :
    (r.told e turn).due? n = r.due? n := rfl

namespace Readiness

lemma pos_of_due?_readable {i : Interests} {inbound outbound : Nat}
    (h : due? i inbound outbound = some .readable) : 0 < inbound := by
  obtain ⟨hlevels, he⟩ := due?_eq_some_iff.mp h
  split at he
  · cases he
  · next hno => exact (hlevels.resolve_left hno).2

lemma eq_zero_of_due?_writable {i : Interests} {inbound outbound : Nat}
    (h : due? i inbound outbound = some .writable) : outbound = 0 := by
  obtain ⟨-, he⟩ := due?_eq_some_iff.mp h
  split at he
  · next hw => exact hw.2
  · cases he

end Readiness

namespace Site

variable {κ : Type} {s : Site κ} {h : Handle} {r : Stream κ}

/-- No job whose last act is a notice uses the network. -/
lemma network_next_of_notice {a : Agenda} {n : Notice κ} (hn : (a.next s).2.2 = some n) :
    (a.next s).2.1.network = s.network := by
  rcases a with (_ | ⟨e, es⟩) | (_ | ⟨g, gs⟩) | _
  · cases hn
  · simp only [Agenda.next, handle] at hn ⊢
    split at hn
    · cases hn
    · cases hn
    all_goals
      split at hn
      · next g _ => exact s.network_evaluate g
      · cases hn
  · exact s.network_offerPending
  · exact s.network_deliverEnd g
  · cases hn

lemma overrun_write (s : Site κ) (h : Handle) (bytes : Bytes) :
    (s.write h bytes).2.network.overrun = s.network.overrun := by
  rw [write]
  split
  · rfl
  · split
    · rfl
    · dsimp only
      split <;> rfl

/-- Where a reader is due to be told, a read finds bytes, or the end of a stream without a connection. -/
lemma read_of_due (hr : s.manager.streams.get? h = some r) (hd : r.due? s.network = some .readable)
    {k : Nat} (hk : 0 < k) :
    ∃ bytes, (s.read h k).1 = .ok bytes ∧ (bytes = [] ↔ r.state = .orphaned) := by
  have hread := reads hr k
  generalize s.read h k = p at hread
  cases hread with
  | lost hc => exact ⟨[], rfl, by simp [Stream.state, hc]⟩
  | dry c hc hdry =>
    rw [Stream.due?, hc] at hd
    have hpos := Readiness.pos_of_due?_readable hd
    omega
  | bytes c q due s' hc hq hne hq' ho => exact ⟨_, rfl, by simp [Stream.state, hc, hne]⟩

/-- Where a writer is due to be told, all of the outbound limit is free, or there is no connection. -/
lemma write_of_due (hr : s.manager.streams.get? h = some r) (hd : r.due? s.network = some .writable)
    (hroom : 1 ≤ s.manager.options.maxOutboundBytes) (bytes : Bytes) :
    (s.write h bytes).1 =
      if r.state = .active then .ok (min bytes.length s.manager.options.maxOutboundBytes)
      else .error .closed := by
  have hwrite := writes hr bytes
  generalize s.write h bytes = p at hwrite
  cases hwrite with
  | lost hc => simp [Stream.state, hc]
  | full c hc hfull =>
    rw [Stream.due?, hc] at hd
    have hzero := Readiness.eq_zero_of_due?_writable hd
    omega
  | queued c n s' hc hn hq ho =>
    rw [Stream.due?, hc] at hd
    rw [Readiness.eq_zero_of_due?_writable hd, Nat.sub_zero] at hn
    simp [Stream.state, hc, hn]

end Site

namespace Moment

variable {κ : Type}

lemma phase?_of_record {w : Moment κ} {i : Nat} {m : Manager κ} (hm : w.manager? i = some m)
    {h : Handle} {r : Stream κ} (hr : m.streams.get? h = some r) :
    w.phase? i h = some r.state := by
  simp [phase?, hm, Manager.streamState?, hr]

lemma network_of_notice {w w' : Moment κ} {mv : Move κ} {i : Nat} {n : Notice κ}
    (h : w.step mv = some (.notice i n, w')) : w'.network = w.network := by
  have h' := step_cases h
  generalize ho : Outcome.notice i n = o at h'
  cases h' with
  | network a _ | call k c s _ hs | note n _ | create o _ | release k s _ hi hs
  | begin k s _ hi hs | leave k agenda n frames s hf hs => cases ho
  | proceed k agenda frames s hf hs =>
    have hnet := ((w.site?_eq_some_iff k s).mp hs).2.1
    rw [proceed_eq] at ho ⊢
    cases hn : (agenda.next s).2.2 with
    | none =>
      rw [hn] at ho
      cases ho
    | some n' => exact (Site.network_next_of_notice hn).trans hnet.symm

/-- When a callback is called there is still to tell what it is told. -/
lemma due_of_notice {w w' : Moment κ} (hw : w.Orderly) {mv : Move κ} {i : Nat} {cb : κ} {h : Handle}
    {e : StreamEvent} (hs : w.step mv = some (.notice i (.event cb h e), w')) :
    ∃ s r, w'.site? i = some s ∧ s.manager.streams.get? h = some r ∧ r.due? s.network = some e := by
  obtain ⟨-, s, s', hsite, hsite', ht⟩ := notice_treats hw hs
  have hsame : s'.network = s.network := by
    rw [← ((w.site?_eq_some_iff i s).mp hsite).2.1, ← ((w'.site?_eq_some_iff i s').mp hsite').2.1,
      network_of_notice hs]
  cases ht.course with
  | notify cb e r hr hc ho hturn hd hr' he =>
    refine ⟨s', _, hsite', hr', ?_⟩
    rw [Stream.due?_told, hsame]
    exact hd

/-- A callback that is told that its stream can be read gets bytes if it reads at once, or hears of the
end if the stream is an orphan; one that is told that it can write gets all of the outbound limit, or
hears that the connection is gone. -/
theorem notices_truthful {ports : PortSource} {mvs : List (Move κ)} {past : History κ}
    {w w' : Moment κ} {mv : Move κ} {i : Nat} {cb : κ} {h : Handle} {e : StreamEvent}
    (hrun : (initial ports).run mvs = some (past, w))
    (hs : w.step mv = some (.notice i (.event cb h e), w')) :
    ∃ m p, w'.manager? i = some m ∧ w'.phase? i h = some p ∧
      (e = .readable → ∀ k, 0 < k → ∃ bytes w'',
        w'.step (.call i (.read h k)) = some (.call (.read (.ok bytes)), w'') ∧
        (p = .active → 1 ≤ bytes.length) ∧ (p = .orphaned → bytes = []) ∧
        (w'.network.clock + m.options.activePushDelay ≤ Duration.greatest →
          w''.network.overrun = w'.network.overrun)) ∧
      (e = .writable → 1 ≤ m.options.maxOutboundBytes → ∀ bytes, ∃ w'',
        w'.step (.call i (.write h bytes)) = some (.call (.written
          (if p = .active then .ok (min bytes.length m.options.maxOutboundBytes)
            else .error .closed)), w'') ∧
        w''.network.overrun = w'.network.overrun) := by
  obtain ⟨hact, -⟩ := founded_notice hs
  obtain ⟨s, r, hsite, hr, hd⟩ := due_of_notice (orderly_run hrun) hs
  obtain ⟨hm, hnet, -⟩ := (w'.site?_eq_some_iff i s).mp hsite
  have hcall := step_call hact hsite
  refine ⟨s.manager, r.state, hm, phase?_of_record hm hr, fun he k hk => ?_, fun he hroom bytes => ?_⟩
  · subst he
    obtain ⟨bytes, hread, hempty⟩ := Site.read_of_due hr hd hk
    refine ⟨bytes, w'.put i (s.read h k).2, ?_, fun hp => ?_, hempty.mpr, fun hlate => ?_⟩
    · rw [← hread]
      exact hcall (.read h k)
    · have hne : bytes ≠ [] := fun hnil => by
        rw [hempty.mp hnil] at hp
        cases hp
      exact List.length_pos_iff.mpr hne
    · rw [hnet] at hlate ⊢
      exact Site.overrun_read hlate h k
  · subst he
    refine ⟨w'.put i (s.write h bytes).2, ?_, ?_⟩
    · rw [← Site.write_of_due hr hd hroom bytes]
      exact hcall (.write h bytes)
    · rw [hnet]
      exact s.overrun_write h bytes

/-- Both streams wait to write; when the first is told that it can, the peer of the second goes away. -/
def peerGone : List (Move Unit) :=
  twoClaimed ++ [.call 0 (.arm ⟨0, 1⟩ .write (some ())), .call 0 (.arm ⟨1, 1⟩ .write (some ())), .leave,
    .proceed, .begin 0, .proceed, .network (.peerClose ⟨3⟩), .leave]

theorem notices_truthful_peerGone : ∃ past w w' w'', (initial .standard).run peerGone = some (past, w) ∧
    w.network.isOpen ⟨3⟩ = false ∧
    w.step .proceed = some (.notice 0 (.event () ⟨1, 1⟩ .writable), w') ∧
    w'.step (.call 0 (.write ⟨1, 1⟩ [7, 8])) = some (.call (.written (.ok 2)), w'') := by
  have hrun : ∃ past w w' m, (initial .standard).run peerGone = some (past, w) ∧
      w.network.isOpen ⟨3⟩ = false ∧
      w.step .proceed = some (.notice 0 (.event () ⟨1, 1⟩ .writable), w') ∧
      w'.manager? 0 = some m ∧ m.options.maxOutboundBytes = 64 ∧ w'.phase? 0 ⟨1, 1⟩ = some .active :=
    ⟨_, _, _, _, rfl, rfl, rfl, rfl, rfl, rfl⟩
  obtain ⟨past, w, w', m, hr, hclosed, hs, hm, hlimit, hactive⟩ := hrun
  obtain ⟨m', p, hm', hp, -, hwrite⟩ := notices_truthful hr hs
  rw [hm] at hm'
  cases hm'
  rw [hactive] at hp
  cases hp
  obtain ⟨w'', hwritten, -⟩ := hwrite rfl (by rw [hlimit]; decide) [7, 8]
  rw [hlimit] at hwritten
  exact ⟨past, w, w', w'', hr, hclosed, hs, hwritten⟩

end Moment

end BoundedStreams
