import BoundedStreams.Proofs.Daemon
import BoundedStreams.Proofs.Waiting

/-! The bytes of one connection, and what happens to them when neither an owner of the network nor the
stream on the connection touches them. -/

namespace BoundedStreams

/-- No byte came or went; some may have been handed over to the peer. -/
structure Connection.Conveys (q q' : Connection) : Prop where
  inbound : q'.inbound = q.inbound
  outward : q'.delivered ++ q'.outbound = q.delivered ++ q.outbound
  queued : q'.outbound.length ≤ q.outbound.length

namespace Connection

lemma Conveys.refl (q : Connection) : q.Conveys q := ⟨rfl, rfl, Nat.le_refl _⟩

lemma conveys_tick (q : Connection) (now : Nat) : q.Conveys (q.tick now).2 := by
  obtain ⟨t, ht⟩ := q.tick_snd now
  rw [ht]
  split
  · exact ⟨rfl, rfl, Nat.le_refl _⟩
  · exact ⟨rfl, List.append_nil _, Nat.zero_le _⟩

/-- What an exchange with the peer does to a connection and to the record of its talk. -/
inductive Exchange (t t' : Daemon.Talk) (q q' : Connection) : Prop where
  | conveyed (ht : t' = t) (hq : q.Conveys q')
  | sent (bytes : Bytes) (ht : t' = { t with sent := t.sent ++ bytes })
      (hq : q' = { q with inbound := q.inbound ++ bytes })
  | taken (ht : t' = { t with taken := t.taken ++ q.delivered }) (hq : q' = { q with delivered := [] })

lemma Exchange.queued {t t' : Daemon.Talk} {q q' : Connection} (h : Exchange t t' q q') :
    q'.outbound.length ≤ q.outbound.length := by
  cases h with
  | conveyed ht hq => exact hq.queued
  | sent bytes ht hq | taken ht hq => exact hq ▸ Nat.le_refl _

end Connection

namespace Network

variable {n n' : Network} {c : SocketId}

/-- If the connection `c` is still open, no byte of it came or went. -/
def Conveys (c : SocketId) (n n' : Network) : Prop :=
  ∀ q', n'.get? c = some q' → ∃ q, n.get? c = some q ∧ q.Conveys q'

lemma Conveys.of_get? (h : ∀ q, n'.get? c = some q → n.get? c = some q) : Conveys c n n' :=
  fun q hq => ⟨q, h q hq, .refl q⟩

lemma Conveys.of_eq (h : n'.get? c = n.get? c) : Conveys c n n' := .of_get? fun _ hq => h ▸ hq

lemma Sheds.conveys (h : n.Sheds n') (c : SocketId) : Conveys c n n' := .of_get? fun _ => h.get?

lemma conveys_poll (n : Network) (c : SocketId) : Conveys c n n.poll.2 := by
  intro q' hq'
  rw [get?_poll] at hq'
  obtain ⟨q, hq, rfl⟩ := Option.map_eq_some_iff.mp hq'
  exact ⟨q, hq, q.conveys_tick n.clock⟩

lemma conveys_update (n : Network) (d : SocketId) {f : Connection → Connection}
    (hf : d = c → ∀ q : Connection, q.Conveys (f q)) : Conveys c n (n.update d f) := by
  intro q' hq'
  rw [get?_update] at hq'
  split at hq'
  · next hd =>
    obtain ⟨q, hq, rfl⟩ := Option.map_eq_some_iff.mp hq'
    exact ⟨q, hq, hf hd q⟩
  · exact ⟨q', hq', .refl q'⟩

/-- Whether an action puts bytes into the connection `c`, or takes some out of it, in its owner's place. -/
def Action.tampers (c : SocketId) : Action → Bool
  | .send d _ | .recv d _ => d = c
  | _ => false

open Daemon in
/-- An action of the network concerns the bytes of a connection only as an exchange with its peer. -/
lemma exchange_perform {κ : Type} (n : Network) {a : Action} (ha : a.tampers c = false)
    (hc : (∃ p, a = .connect p) → c.num < n.nextId) {q' : Connection}
    (hq' : (n.perform a).2.get? c = some q') :
    ∃ q, n.get? c = some q ∧ ∀ t : Talk,
      q.Exchange t (t.hear c ((.network a : Act κ), (n.perform a).1)) q' := by
  have hconvey : ∀ {n'}, Conveys c n n' → n'.get? c = some q' →
      (∀ t : Talk, t.hear c ((.network a : Act κ), (n.perform a).1) = t) →
      ∃ q, n.get? c = some q ∧ ∀ t : Talk,
        q.Exchange t (t.hear c ((.network a : Act κ), (n.perform a).1)) q' := by
    intro n' h hq ht
    obtain ⟨q, hq, hqq'⟩ := h q' hq
    exact ⟨q, hq, fun t => .conveyed (ht t) hqq'⟩
  cases a with
  | advance d => exact hconvey (.of_eq (n.get?_advance d c)) hq' fun _ => rfl
  | connect p =>
    rcases n.connect_eq p with h | ⟨l, h⟩ <;> simp only [perform, h] at hq' hconvey ⊢
    · exact hconvey (.of_eq rfl) hq' fun _ => rfl
    · have hne : (⟨n.nextId⟩ : SocketId) ≠ c := by
        rintro rfl
        exact Nat.lt_irrefl _ (hc ⟨p, rfl⟩)
      refine hconvey (.of_eq ?_) hq' fun t => if_neg hne
      simp only [get?, Table.get?_set, if_neg hne]
  | peerSend d bs =>
    simp only [perform, get?_peerSend] at hq'
    split at hq'
    · next hd =>
      obtain ⟨q, hq, rfl⟩ := Option.map_eq_some_iff.mp hq'
      exact ⟨q, hq, fun t => .sent bs (if_pos hd) rfl⟩
    · next hd => exact ⟨q', hq', fun t => .conveyed (if_neg hd) (.refl q')⟩
  | peerTake d =>
    cases hd : n.get? d with
    | none =>
      simp only [perform, peerTake, hd] at hq' hconvey ⊢
      have hne : d ≠ c := by
        rintro rfl
        rw [hd] at hq'
        cases hq'
      exact hconvey (.of_eq rfl) hq' fun t => if_neg hne
    | some k =>
      simp only [perform, peerTake, hd, get?_update] at hq' ⊢
      split at hq'
      · next hdc =>
        subst hdc
        rw [hd, Option.map_some, Option.some.injEq] at hq'
        exact ⟨k, hd, fun t => .taken (if_pos rfl) hq'.symm⟩
      · next hdc => exact ⟨q', hq', fun t => .conveyed (if_neg hdc) (.refl q')⟩
  | peerClose d | abort d => exact hconvey (Sheds.conveys ⟨[d], rfl⟩ c) hq' fun _ => rfl
  | stall d on =>
    refine hconvey ?_ hq' fun _ => rfl
    exact n.conveys_update d fun _ q => ⟨rfl, rfl, Nat.le_refl _⟩
  | timer d | socket d | listening p | openCount | now | closeListener d =>
    exact hconvey (.of_eq rfl) hq' fun _ => rfl
  | bind p => exact hconvey (.of_eq (n.get?_bind p c)) hq' fun _ => rfl
  | send d bs =>
    have hd : d ≠ c := by simpa [Action.tampers] using ha
    exact hconvey (n.conveys_update d fun he => absurd he hd) hq' fun _ => rfl
  | schedule d k =>
    simp only [perform, schedule] at hq'
    split at hq'
    · refine hconvey ?_ hq' fun _ => rfl
      exact n.conveys_update d fun _ q => ⟨rfl, rfl, Nat.le_refl _⟩
    · exact hconvey (.of_eq rfl) hq' fun _ => rfl
  | recv d k =>
    have hd : d ≠ c := by simpa [Action.tampers] using ha
    exact hconvey (.of_eq (n.get?_recv_of_ne k hd)) hq' fun _ => rfl
  | poll => exact hconvey (n.conveys_poll c) hq' fun _ => rfl

lemma awaiting_perform (n : Network) (a : Action) :
    ∀ c ∈ awaiting (n.perform a).2.queue, c ∈ awaiting n.queue ∨
      ∃ p, a = .connect p ∧ (n.perform a).1 = .socket (some c) ∧
        (n.perform a).2.get? c = some .opened := by
  intro c hc
  have h := n.shift_perform a
  by_cases ha : ∃ p, a = .connect p
  · obtain ⟨p, rfl⟩ := ha
    rcases n.connect_eq p with h | ⟨l, h⟩ <;> simp only [perform, h] at hc ⊢
    · exact .inl hc
    · rw [awaiting_append, List.mem_append] at hc
      refine hc.imp id fun hc => ⟨p, rfl, ?_⟩
      obtain rfl := List.mem_singleton.mp hc
      exact ⟨rfl, (Table.get?_set _ _ _ _).trans (if_pos rfl)⟩
  · left
    generalize (n.perform a).2 = n' at h hc
    cases h with
    | quiet h => rwa [h.queue] at hc
    | connect p l => exact absurd ⟨p, rfl⟩ ha
    | peerSend d bs h =>
      have hnone : awaiting [⟨d, .received⟩] = [] := rfl
      rwa [enqueue, awaiting_append, h.queue, hnone, List.append_nil] at hc
    | close d => rwa [awaiting_close] at hc
    | poll => cases hc

end Network

/-- The stream that a call reads from or writes to. -/
def Call.moves? {κ : Type} : Call Handle κ → Option Handle
  | .read h _ | .write h _ => some h
  | _ => none

namespace Site

variable {κ : Type} {c : SocketId}

/-! A stream is used without any effect on the connections of others. -/

section Others

variable {s : Site κ} {h : Handle}
  (hc : ∀ r, s.manager.streams.get? h = some r → r.socket ≠ some c)

include hc

lemma get?_read_of_ne (k : Nat) : (s.read h k).2.network.get? c = s.network.get? c := by
  rw [read]
  split
  · rfl
  · next r hr =>
    split
    · rfl
    · next d hd =>
      have hne : d ≠ c := by
        rintro rfl
        exact hc r hr hd
      split
      · rfl
      · show Network.get? (if _ then _ else _) c = _
        split
        · exact (Network.get?_schedule_of_ne _ _ (Ne.symm hne)).trans (s.network.get?_recv_of_ne k hne)
        · exact s.network.get?_recv_of_ne k hne

lemma get?_write_of_ne (bytes : Bytes) : (s.write h bytes).2.network.get? c = s.network.get? c := by
  rw [write]
  split
  · rfl
  · next r hr =>
    split
    · rfl
    · next d hd =>
      have hne : d ≠ c := by
        rintro rfl
        exact hc r hr hd
      dsimp only
      split
      · rfl
      · exact (Network.get?_send _ d c _).trans (if_neg hne)

lemma get?_close_of_ne : (s.close h).network.get? c = s.network.get? c := by
  rw [close]
  dsimp only
  split
  · rfl
  · next r hr =>
    split
    · next d hd =>
      have hne : d ≠ c := by
        rintro rfl
        exact hc r hr hd
      have habort : ∀ t : Site κ, (t.abort d).network.get? c = t.network.get? c := by
        intro t
        rw [abort]
        split
        · exact (Network.get?_close _ d c).trans (if_neg hne)
        · rfl
      exact habort _
    · rfl

end Others

/-- A call that moves no bytes of a connection leaves it as it was or ends it. -/
lemma get?_of_call {s : Site κ} {call : Call Handle κ} {q : Connection}
    (hc : ∀ h r, call.moves? = some h → s.manager.streams.get? h = some r → r.socket ≠ some c)
    (hq : (call.perform s).2.network.get? c = some q) : s.network.get? c = some q := by
  cases call with
  | openListener callback => exact (s.get?_openListener callback c).symm.trans hq
  | closeListener => exact get?_of_closeListener hq
  | accept => exact (congrArg (Network.get? · c) s.network_accept).symm.trans hq
  | close h => exact (s.sheds_close h).get? hq
  | arm h want callback => exact (congrArg (Network.get? · c) (s.network_arm h want callback)).symm.trans hq
  | read h k => exact (get?_read_of_ne (fun r => hc h r rfl) k).symm.trans hq
  | write h bytes => exact (get?_write_of_ne (fun r => hc h r rfl) bytes).symm.trans hq
  | port | closeOutput h | state h | stats => exact hq

lemma conveys_call (s : Site κ) (call : Call Handle κ)
    (hc : ∀ h r, call.moves? = some h → s.manager.streams.get? h = some r → r.socket ≠ some c) :
    Network.Conveys c s.network (call.perform s).2.network := .of_get? fun _ => get?_of_call hc

lemma conveys_release (s : Site κ) : Network.Conveys c s.network s.release.network :=
  .of_get? fun _ hq => get?_of_closeListener (s.sheds_release.get? hq)

end Site

end BoundedStreams
