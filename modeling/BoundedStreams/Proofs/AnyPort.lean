import BoundedStreams.Manager.Listening
import BoundedStreams.Proofs.Protocol
import Mathlib.Data.List.Induction

/-! Requests for any port. A network counts these requests and offers each its next port, whether somebody
listens there or not. Ports are counted as in a release build, where 0 follows 65535. In a build with
overflow checks, the default, the 25536th request of a network, which would get 65535, stops the program;
up to there the two builds agree. -/

namespace BoundedStreams

namespace Table

variable {α β : Type} [DecidableEq α]

lemma mem_entries_of_set {t : Table α β} {k : α} {b : β} {e : α × β}
    (h : e ∈ (t.set k b).entries) : e ∈ t.entries ∨ e = (k, b) := by
  obtain ⟨es⟩ := t
  simp only [set] at h ⊢
  induction es with
  | nil => exact .inr (List.mem_singleton.mp h)
  | cons f es ih =>
    rw [replace] at h
    split at h
    · rcases List.mem_cons.mp h with rfl | h
      · exact .inr rfl
      · exact .inl (List.mem_cons_of_mem _ h)
    · rcases List.mem_cons.mp h with rfl | h
      · exact .inl List.mem_cons_self
      · exact (ih h).imp (List.mem_cons_of_mem _) id

end Table

namespace Network

/-- Whether any port is asked for. -/
def Action.asksAny : Action → Bool
  | .bind p => p = 0
  | _ => false

def asked (as : List Action) : Nat := as.countP Action.asksAny

/-- A request for any port gets one that is not 0 and that nobody held. -/
def ServesAny (n : Network) : Prop :=
  ∃ l p, (n.bind 0).1 = .ok (l, p) ∧ p ≠ 0 ∧ n.isListening p = false

variable {n : Network} {p q : Port}

/-! ### One request -/

lemma bind_any (n : Network) : n.bind 0 =
    if n.isListening n.nextPort then (.error ⟨n.nextPort⟩, { n with nextPort := n.nextPort + 1 })
    else (.ok (⟨n.nextId⟩, n.nextPort), { n with
      nextPort := n.nextPort + 1
      nextId := n.nextId + 1
      listeners := n.listeners.set ⟨n.nextId⟩ n.nextPort }) := rfl

lemma servesAny_iff (n : Network) :
    n.ServesAny ↔ n.isListening n.nextPort = false ∧ n.nextPort ≠ 0 := by
  rw [ServesAny, bind_any]
  constructor
  · rintro ⟨l, p, hok, hp, hfree⟩
    split at hok
    · cases hok
    · cases hok
      exact ⟨hfree, hp⟩
  · rintro ⟨hfree, hne⟩
    exact ⟨_, _, by rw [hfree]; rfl, hne, hfree⟩

lemma isListening_eq_true_iff (n : Network) (q : Port) :
    n.isListening q = true ↔ ∃ e ∈ n.listeners.entries, e.2 = q := by
  simp [isListening, listenerOn?]

/-- Whoever listens did so before, or got the port that it asked for. -/
lemma isListening_of_perform {a : Action} (h : (n.perform a).2.isListening q = true) :
    n.isListening q = true ∨ ∃ p, a = .bind p ∧ q = (n.assignPort p).1 := by
  rw [isListening_eq_true_iff] at h ⊢
  obtain ⟨e, he, rfl⟩ := h
  rcases (n.frame_perform a).2 with hl | ⟨p, rfl⟩ | ⟨s, rfl⟩
  · exact .inl ⟨e, hl ▸ he, rfl⟩
  · obtain ⟨r, hassign⟩ := n.assignPort_snd p
    simp only [perform, bind, hassign] at he
    split at he
    · exact .inl ⟨e, he, rfl⟩
    · rcases Table.mem_entries_of_set he with he | rfl
      · exact .inl ⟨e, he, rfl⟩
      · exact .inr ⟨p, rfl, rfl⟩
  · exact .inl ⟨e, List.mem_of_mem_filter he, rfl⟩

/-! ### The next port -/

lemma nextPort_perform (n : Network) (a : Action) : (n.perform a).2.nextPort =
    if a.asksAny then n.nextPort + 1 else n.nextPort := by
  have hclose : ∀ s, (n.close s).nextPort = n.nextPort := by
    intro s
    rw [close]
    split <;> rfl
  cases a with
  | bind p =>
    by_cases hp : p = 0
    · subst hp
      simp only [perform, bind_any, Action.asksAny, decide_true, if_true]
      split <;> rfl
    · simp only [perform, bind, assignPort, if_neg hp, Action.asksAny, decide_eq_true_eq]
      split <;> rfl
  | peerClose s | abort s => exact hclose s
  | advance d =>
    simp only [perform, advance]
    split <;> rfl
  | connect p =>
    simp only [perform, connect]
    split <;> rfl
  | peerSend s bytes =>
    simp only [perform, peerSend]
    split <;> rfl
  | peerTake s =>
    simp only [perform, peerTake]
    split <;> rfl
  | schedule s d =>
    simp only [perform, schedule]
    split <;> rfl
  | recv s k =>
    simp only [perform, recv]
    split <;> rfl
  | stall s on | timer s | socket s | listening p | openCount | now | closeListener s | send s bytes
  | poll => rfl

lemma asked_append_singleton (as : List Action) (a : Action) :
    asked (as ++ [a]) = asked as + if a.asksAny then 1 else 0 := by
  rw [asked, List.countP_append, List.countP_singleton, asked]

lemma after_append_singleton (n : Network) (as : List Action) (a : Action) :
    n.after (as ++ [a]) = ((n.after as).perform a).2 := n.after_append as [a]

lemma nextPort_after (as : List Action) :
    (initial.after as).nextPort = firstPort + UInt16.ofNat (asked as) := by
  induction as using List.reverseRecOn with
  | nil => rfl
  | append_singleton as a ih =>
    rw [after_append_singleton, nextPort_perform, ih, asked_append_singleton]
    split
    · rw [UInt16.ofNat_add, UInt16.add_assoc]
      rfl
    · rfl

lemma toNat_nextPort_after {as : List Action} (h : firstPort.toNat + asked as < UInt16.size) :
    (initial.after as).nextPort.toNat = firstPort.toNat + asked as := by
  have hlt : asked as < UInt16.size := by omega
  rw [nextPort_after, UInt16.toNat_add, UInt16.toNat_ofNat_of_lt' hlt]
  exact Nat.mod_eq_of_lt h

/-- Whoever asks for a port below the network's own ones is never in its way. -/
lemma lt_nextPort_after {as : List Action} (hfixed : ∀ p, .bind p ∈ as → p < firstPort)
    (hlast : firstPort.toNat + asked as < UInt16.size) :
    ∀ q, (initial.after as).isListening q = true → q < (initial.after as).nextPort := by
  induction as using List.reverseRecOn with
  | nil => exact nofun
  | append_singleton as a ih =>
    have hnext' := toNat_nextPort_after hlast
    rw [asked_append_singleton] at hlast hnext'
    have hfew : firstPort.toNat + asked as < UInt16.size := by omega
    have hnext := toNat_nextPort_after hfew
    have hbelow := ih (fun p hp => hfixed p (List.mem_append_left _ hp)) hfew
    rw [after_append_singleton] at hnext' ⊢
    generalize initial.after as = n at hnext hbelow hnext' ⊢
    intro q hq
    rw [UInt16.lt_iff_toNat_lt, hnext']
    rcases isListening_of_perform hq with hq | ⟨p, rfl, rfl⟩
    · have hlt := UInt16.lt_iff_toNat_lt.mp (hbelow q hq)
      omega
    · rw [assignPort]
      split
      · next hp =>
        subst hp
        have hasks : Action.asksAny (.bind 0) = true := rfl
        rw [hasks, if_pos rfl]
        exact Nat.lt_succ_of_le (Nat.le_of_eq hnext)
      · have hsmall := UInt16.lt_iff_toNat_lt.mp
          (hfixed p (List.mem_append_right _ (List.mem_singleton_self _)))
        dsimp only
        omega

/-! ### Requests one after the other -/

/-- Requests for any port are refused until it is the turn of the first port that is free. -/
lemma after_refused (n : Network) (hle : n.nextPort ≤ q) (hq : n.isListening q = false) : ∃ k p,
    p.toNat = n.nextPort.toNat + k ∧ p ≤ q ∧ n.isListening p = false ∧
      (∀ j, n.nextPort ≤ j → j < p → n.isListening j = true) ∧
      n.after (.replicate k (.bind 0)) = { n with nextPort := p } := by
  cases hheld : n.isListening n.nextPort with
  | false => exact ⟨0, n.nextPort, rfl, hle, hheld, fun j h₁ h₂ => absurd h₂ (UInt16.not_lt.mpr h₁), rfl⟩
  | true =>
    have hne : n.nextPort.toNat ≠ q.toNat := by
      intro he
      rw [UInt16.toNat_inj.mp he, hq] at hheld
      cases hheld
    have hle' := UInt16.le_iff_toNat_le.mp hle
    have hsucc : (n.nextPort + 1).toNat = n.nextPort.toNat + 1 := by
      have := q.toNat_lt
      rw [UInt16.toNat_add]
      exact Nat.mod_eq_of_lt (by simp; omega)
    obtain ⟨k, p, hp, hpq, hfree, hbetween, hafter⟩ := after_refused
      { n with nextPort := n.nextPort + 1 } (UInt16.le_iff_toNat_le.mpr (by simp only [hsucc]; omega)) hq
    rw [hsucc] at hp
    refine ⟨k + 1, p, by omega, hpq, hfree, fun j h₁ h₂ => ?_, ?_⟩
    · rcases Nat.eq_or_lt_of_le (UInt16.le_iff_toNat_le.mp h₁) with he | hlt
      · rw [← UInt16.toNat_inj.mp he]
        exact hheld
      · exact hbetween j (UInt16.le_iff_toNat_le.mpr (by simp only [hsucc]; omega)) h₂
    · rw [List.replicate_succ, after]
      have hone : (n.perform (.bind 0)).2 = { n with nextPort := n.nextPort + 1 } := by
        simp only [perform, bind_any, hheld, if_true]
      rw [hone, hafter]
termination_by q.toNat - n.nextPort.toNat
decreasing_by
  show q.toNat - (n.nextPort + 1).toNat < q.toNat - n.nextPort.toNat
  omega

end Network

/-- A manager that asks for any port gets what the network gives, and its port with it. -/
lemma Site.openListener_any {κ : Type} {s : Site κ} (callback : κ) (hp : s.manager.port = 0)
    (hl : s.manager.listener = none) :
    (s.openListener callback).2.network = (s.network.bind 0).2 ∧
      if s.network.isListening s.network.nextPort then
        (s.openListener callback).1 = .error (.bind 0 ⟨s.network.nextPort⟩) ∧
          (s.openListener callback).2.manager = s.manager
      else (s.openListener callback).1 = .ok () ∧
        (s.openListener callback).2.manager = { s.manager with
          port := s.network.nextPort, listener := some ⟨⟨s.network.nextId⟩, callback⟩ } := by
  rw [openListener, hl, hp, Network.bind_any]
  cases s.network.isListening s.network.nextPort with
  | true => exact ⟨rfl, rfl, rfl⟩
  | false => exact ⟨rfl, rfl, rfl⟩

namespace Network

/-- A network offers its own ports in their order from the first one on, one to each request for any port.
The request succeeds if nobody listens on the port whose turn it is, and else uses it up. As long as the
network's own ports last and every fixed port that was asked for is below them, it succeeds. Asking again
finds the first free port from the next one on, if there is one. A manager that asks for any port fares as
the request does. -/
theorem any_port {κ : Type} (as : List Action) :
    let n := initial.after as
    n.nextPort = firstPort + UInt16.ofNat (asked as) ∧
    (n.ServesAny ↔ n.isListening n.nextPort = false ∧ n.nextPort ≠ 0) ∧
    (n.bind 0 = if n.isListening n.nextPort then
        (.error ⟨n.nextPort⟩, { n with nextPort := n.nextPort + 1 })
      else (.ok (⟨n.nextId⟩, n.nextPort), { n with
        nextPort := n.nextPort + 1
        nextId := n.nextId + 1
        listeners := n.listeners.set ⟨n.nextId⟩ n.nextPort })) ∧
    ((∀ p, .bind p ∈ as → p < firstPort) → firstPort.toNat + asked as < UInt16.size → n.ServesAny) ∧
    (∀ q, n.nextPort ≠ 0 → n.nextPort ≤ q → n.isListening q = false →
      ∃ k p, p ≤ q ∧ (∀ j, n.nextPort ≤ j → j < p → n.isListening j = true) ∧
        n.after (.replicate k (.bind 0)) = { n with nextPort := p } ∧
        (n.after (.replicate k (.bind 0))).ServesAny) ∧
    ∀ (s : Site κ) callback, s.network = n → s.manager.port = 0 → s.manager.listener = none →
      (s.openListener callback).2.network = (n.bind 0).2 ∧
      if n.isListening n.nextPort then
        (s.openListener callback).1 = .error (.bind 0 ⟨n.nextPort⟩) ∧
          (s.openListener callback).2.manager = s.manager
      else (s.openListener callback).1 = .ok () ∧
        (s.openListener callback).2.manager = { s.manager with
          port := n.nextPort, listener := some ⟨⟨n.nextId⟩, callback⟩ } := by
  intro n
  refine ⟨nextPort_after as, n.servesAny_iff, n.bind_any, fun hfixed hlast => ?_, fun q hne hle hq => ?_,
    fun s callback hn hp hl => hn ▸ Site.openListener_any callback hp hl⟩
  · have hnext := toNat_nextPort_after hlast
    refine n.servesAny_iff.mpr ⟨Bool.eq_false_iff.mpr fun hheld => ?_, fun hzero => ?_⟩
    · exact absurd (lt_nextPort_after hfixed hlast _ hheld) (UInt16.lt_irrefl _)
    · have htoNat : n.nextPort.toNat = firstPort.toNat + asked as := hnext
      rw [hzero] at htoNat
      exact absurd htoNat.symm (by simp [firstPort])
  · obtain ⟨k, p, hp, hpq, hfree, hbetween, hafter⟩ := n.after_refused hle hq
    refine ⟨k, p, hpq, hbetween, hafter, ?_⟩
    rw [hafter]
    refine (servesAny_iff _).mpr ⟨hfree, fun hzero => hne (UInt16.toNat_inj.mp ?_)⟩
    have hp0 : p = 0 := hzero
    rw [hp0] at hp
    have h0 : (0 : Port).toNat = 0 := rfl
    omega

/-- Somebody asks for the second port of the network's own. -/
def secondTaken : List Action := [.bind 0, .bind 40001]

theorem any_port_secondTaken :
    (initial.after [.bind 9000, .bind 0]).ServesAny ∧ ¬ (initial.after secondTaken).ServesAny ∧
    (∃ k p, p ≤ 40002 ∧ (initial.after secondTaken).after (.replicate k (.bind 0)) =
        { initial.after secondTaken with nextPort := p } ∧
      ((initial.after secondTaken).after (.replicate k (.bind 0))).ServesAny) ∧
    ∃ s : Site Unit, s.network = initial.after secondTaken ∧ s.manager.port = 0 ∧
      (s.openListener ()).1 = .error (.bind 0 ⟨40001⟩) := by
  have hlow : ∀ p, Action.bind p ∈ [.bind 9000, .bind 0] → p < firstPort := by
    intro p hp
    simp only [List.mem_cons, Action.bind.injEq, List.not_mem_nil, or_false] at hp
    rcases hp with rfl | rfl <;> decide
  have hheld : (initial.after secondTaken).isListening (initial.after secondTaken).nextPort = true := by
    decide
  obtain ⟨-, -, -, hserves, -⟩ := any_port (κ := Unit) [.bind 9000, .bind 0]
  obtain ⟨-, hiff, -, -, hagain, hopen⟩ := any_port (κ := Unit) secondTaken
  obtain ⟨k, p, hle, -, hafter, hfound⟩ := hagain 40002 (by decide) (by decide) (by decide)
  let s : Site Unit := ⟨initial.after secondTaken,
    (Manager.create ⟨none, 1, 1, 0, 0, 0, 64, 0⟩ .assignedByNetwork).1, .blank⟩
  have hs := (hopen s () rfl rfl rfl).2
  rw [if_pos hheld] at hs
  refine ⟨hserves hlow (by decide), fun h => ?_, ⟨k, p, hle, hafter, hfound⟩, s, rfl, rfl, hs.1⟩
  rw [(hiff.mp h).1] at hheld
  cases hheld

/-- The first port of the network's own is taken, and the next one is free. -/
theorem any_port_refused : ¬ ∀ as : List Action,
    (∀ a ∈ as, (∃ p, a = .bind p) ∨ ∃ l, a = .closeListener l) →
    (∃ q, firstPort ≤ q ∧ (initial.after as).isListening q = false) → (initial.after as).ServesAny := by
  intro hall
  have hbinds : ∀ a ∈ [Action.bind 40000], (∃ p, a = .bind p) ∨ ∃ l, a = .closeListener l := by
    rw [List.forall_mem_singleton]
    exact .inl ⟨40000, rfl⟩
  obtain ⟨l, p, hok, -, -⟩ := hall [.bind 40000] hbinds ⟨40001, by decide, by decide⟩
  cases hok

end Network

end BoundedStreams
