import BoundedStreams.Network.Action
import BoundedStreams.Network.Lemmas
import Mathlib.Data.List.Nodup

/-! Which connections of a network are open and which events are queued, after each of its operations.
Most operations leave both alone. -/

namespace BoundedStreams

def SocketEvent.accepted? (e : SocketEvent) : Option SocketId :=
  match e.kind with
  | .accepted _ => some e.socket
  | .received | .sent | .timer | .poll | .closed => none

/-- The connections whose arrival is still to be handled. -/
def awaiting (es : List SocketEvent) : List SocketId := es.filterMap SocketEvent.accepted?

lemma awaiting_append (es fs : List SocketEvent) :
    awaiting (es ++ fs) = awaiting es ++ awaiting fs := List.filterMap_append

lemma mem_awaiting_iff (es : List SocketEvent) (c : SocketId) :
    c ∈ awaiting es ↔ ∃ l, ⟨c, .accepted l⟩ ∈ es := by
  simp only [awaiting, List.mem_filterMap]
  constructor
  · rintro ⟨⟨d, k⟩, he, hd⟩
    cases k <;> simp [SocketEvent.accepted?] at hd
    subst hd
    exact ⟨_, he⟩
  · rintro ⟨l, he⟩
    exact ⟨_, he, rfl⟩

namespace Network

/-- The same connections are open, the same events are queued, and no name was taken back. -/
structure SameTraffic (n n' : Network) : Prop where
  opened : ∀ c, n'.isOpen c = n.isOpen c
  queue : n'.queue = n.queue
  nextId : n.nextId ≤ n'.nextId

lemma SameTraffic.refl (n : Network) : n.SameTraffic n := ⟨fun _ => rfl, rfl, Nat.le_refl _⟩

lemma SameTraffic.trans {n₁ n₂ n₃ : Network} (h : n₁.SameTraffic n₂) (h' : n₂.SameTraffic n₃) :
    n₁.SameTraffic n₃ :=
  ⟨fun c => (h'.opened c).trans (h.opened c), h'.queue.trans h.queue, Nat.le_trans h.nextId h'.nextId⟩

lemma sameTraffic_update (n : Network) (s : SocketId) (f : Connection → Connection) :
    n.SameTraffic (n.update s f) := by
  refine ⟨fun c => ?_, rfl, Nat.le_refl _⟩
  rw [isOpen_eq, isOpen_eq, get?_update]
  split <;> simp

lemma sameTraffic_advance (n : Network) (d : Nat) : n.SameTraffic (n.advance d) := by
  rw [advance]
  split <;> exact ⟨fun _ => rfl, rfl, Nat.le_refl _⟩

lemma sameTraffic_closeListener (n : Network) (s : SocketId) : n.SameTraffic (n.closeListener s) :=
  ⟨fun _ => rfl, rfl, Nat.le_refl _⟩

lemma sameTraffic_recv (n : Network) (s : SocketId) (k : Nat) : n.SameTraffic (n.recv s k).2 := by
  rw [recv]
  split
  · exact n.sameTraffic_update s _
  · exact .refl n

lemma sameTraffic_peerTake (n : Network) (s : SocketId) : n.SameTraffic (n.peerTake s).2 := by
  rw [peerTake]
  split
  · exact n.sameTraffic_update s _
  · exact .refl n

lemma sameTraffic_schedule (n : Network) (s : SocketId) (d : Nat) :
    n.SameTraffic (n.schedule s d) := by
  rw [schedule]
  split
  · exact n.sameTraffic_update s _
  · exact ⟨fun _ => rfl, rfl, Nat.le_refl _⟩

lemma sameTraffic_bind (n : Network) (p : Port) : n.SameTraffic (n.bind p).2 := by
  obtain ⟨q, k, ls, hle, hn⟩ := n.bind_frame p
  rw [hn]
  exact ⟨fun _ => rfl, rfl, hle⟩

/-! ### Ends of connections -/

lemma isOpen_close (n : Network) (c d : SocketId) :
    (n.close c).isOpen d = (decide (c ≠ d) && n.isOpen d) := by
  rw [isOpen_eq, isOpen_eq, get?_close]
  by_cases h : c = d <;> simp [h]

lemma queue_close (n : Network) (c : SocketId) :
    (n.close c).queue = n.queue ++ if n.isOpen c then [⟨c, .closed⟩] else [] := by
  rw [close, isOpen]
  split <;> simp

@[simp] lemma nextId_close (n : Network) (c : SocketId) : (n.close c).nextId = n.nextId := by
  rw [close]
  split <;> rfl

lemma SameTraffic.close {n n' : Network} (h : n.SameTraffic n') (c : SocketId) :
    (n.close c).SameTraffic (n'.close c) := by
  refine ⟨fun d => ?_, ?_, ?_⟩
  · rw [isOpen_close, isOpen_close, h.opened]
  · rw [queue_close, queue_close, h.queue, h.opened]
  · rw [nextId_close, nextId_close]
    exact h.nextId

@[simp] lemma awaiting_close (n : Network) (c : SocketId) :
    awaiting (n.close c).queue = awaiting n.queue := by
  rw [queue_close, awaiting_append]
  split <;> simp [awaiting, SocketEvent.accepted?]

lemma isOpen_foldl_close (cs : List SocketId) (n : Network) (d : SocketId) :
    (cs.foldl close n).isOpen d = (decide (d ∉ cs) && n.isOpen d) := by
  induction cs generalizing n with
  | nil => simp
  | cons c cs ih =>
    rw [List.foldl_cons, ih, isOpen_close]
    by_cases hc : c = d
    · simp [hc]
    · simp [hc, Ne.symm hc]

@[simp] lemma nextId_foldl_close (cs : List SocketId) (n : Network) :
    (cs.foldl close n).nextId = n.nextId := by
  induction cs generalizing n with
  | nil => rfl
  | cons c cs ih => rw [List.foldl_cons, ih, nextId_close]

@[simp] lemma awaiting_foldl_close (cs : List SocketId) (n : Network) :
    awaiting (cs.foldl close n).queue = awaiting n.queue := by
  induction cs generalizing n with
  | nil => rfl
  | cons c cs ih => rw [List.foldl_cons, ih, awaiting_close]

/-! ### Arrivals -/

lemma connect_eq (n : Network) (p : Port) :
    n.connect p = (none, n) ∨ ∃ l, n.connect p = (some ⟨n.nextId⟩, { n with
      nextId := n.nextId + 1
      connections := n.connections.set ⟨n.nextId⟩ .opened
      queue := n.queue ++ [⟨⟨n.nextId⟩, .accepted l⟩] }) := by
  rw [connect]
  split
  · exact Or.inl rfl
  · exact Or.inr ⟨_, rfl⟩

lemma peerSend_eq (n : Network) (s : SocketId) (bs : Bytes) :
    n.peerSend s bs = n ∨ ∃ n', n.SameTraffic n' ∧ n.peerSend s bs = n'.enqueue s .received := by
  rw [peerSend]
  split
  · exact Or.inr ⟨_, n.sameTraffic_update s _, rfl⟩
  · exact Or.inl rfl

/-! ### Polls -/

lemma tick_ne_accepted {now : Nat} {c : Connection} {k : EventKind} (hk : k ∈ (c.tick now).1) :
    (∀ l, k ≠ .accepted l) ∧ k ≠ .closed := by
  simp only [Connection.tick, List.mem_append, List.mem_singleton] at hk
  rcases hk with (hk | hk) | rfl
  · split at hk <;> simp at hk
    subst hk; simp
  · split at hk <;> simp at hk
    subst hk; simp
  · simp

lemma poll_eq (n : Network) : ∃ ticks : List SocketEvent, n.poll.1 = n.queue ++ ticks ∧
    (∀ e ∈ ticks, (∀ l, e.kind ≠ .accepted l) ∧ e.kind ≠ .closed) := by
  refine ⟨_, rfl, ?_⟩
  intro e he
  obtain ⟨x, -, hx⟩ := List.mem_flatMap.mp he
  obtain ⟨k, hk, rfl⟩ := List.mem_map.mp hx
  exact tick_ne_accepted hk

lemma isOpen_poll (n : Network) (c : SocketId) : n.poll.2.isOpen c = n.isOpen c := by
  rw [isOpen_eq, isOpen_eq, get?_poll]
  simp

lemma awaiting_poll (n : Network) : awaiting n.poll.1 = awaiting n.queue := by
  obtain ⟨ticks, heq, ht⟩ := n.poll_eq
  have hnone : awaiting ticks = [] := by
    rw [awaiting, List.filterMap_eq_nil_iff]
    intro e he
    obtain ⟨d, k⟩ := e
    cases k <;> simp [SocketEvent.accepted?]
    exact absurd rfl ((ht _ he).1 _)
  rw [heq, awaiting_append, hnone, List.append_nil]

inductive Shift (n : Network) : Action → Network → Prop where
  | quiet {a : Action} {n' : Network} (h : n.SameTraffic n') : Shift n a n'
  | connect (p : Port) (l : SocketId) : Shift n (.connect p) { n with
      nextId := n.nextId + 1
      connections := n.connections.set ⟨n.nextId⟩ .opened
      queue := n.queue ++ [⟨⟨n.nextId⟩, .accepted l⟩] }
  | peerSend (s : SocketId) (bs : Bytes) {n' : Network} (h : n.SameTraffic n') :
      Shift n (.peerSend s bs) (n'.enqueue s .received)
  | close {a : Action} (c : SocketId) : Shift n a (n.close c)
  | poll : Shift n .poll n.poll.2

lemma shift_perform (n : Network) (a : Action) : n.Shift a (n.perform a).2 := by
  cases a with
  | advance d => exact .quiet (n.sameTraffic_advance d)
  | connect p =>
    rcases n.connect_eq p with h | ⟨l, h⟩
    · simp only [perform, h]; exact .quiet (.refl n)
    · simp only [perform, h]; exact .connect p l
  | peerSend s bs =>
    rcases n.peerSend_eq s bs with h | ⟨n', hn, h⟩
    · simp only [perform, h]; exact .quiet (.refl n)
    · simp only [perform, h]; exact .peerSend s bs hn
  | peerClose s => exact .close s
  | peerTake s => exact .quiet (n.sameTraffic_peerTake s)
  | stall s on => exact .quiet (n.sameTraffic_update s _)
  | timer s | socket s | listening p | openCount | now => exact .quiet (.refl n)
  | bind p => exact .quiet (n.sameTraffic_bind p)
  | closeListener s => exact .quiet (n.sameTraffic_closeListener s)
  | send s bs => exact .quiet (n.sameTraffic_update s _)
  | abort s => exact .close s
  | schedule s d => exact .quiet (n.sameTraffic_schedule s d)
  | recv s k => exact .quiet (n.sameTraffic_recv s k)
  | poll => exact .poll

end Network

end BoundedStreams
