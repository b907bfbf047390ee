import BoundedStreams.Network.Basic

/-!
What a tick leaves of a connection; what each operation of a network does to the connections, through
`get?`; and when a connection is open.
-/

namespace BoundedStreams.Connection

theorem drain_snd (c : Connection) : c.drain.2 =
    if c.stalled = true then c else { c with outbound := [], delivered := c.delivered ++ c.outbound } := by
  obtain ⟨inbound, outbound, delivered, stalled, timer⟩ := c
  cases stalled with
  | true => rfl
  | false =>
    cases outbound with
    | nil => simp [drain]
    | cons b bs => rfl

theorem expire_snd (now : Nat) (c : Connection) : ∃ t, (c.expire now).2 = { c with timer := t } := by
  unfold expire
  split
  · split
    · exact ⟨none, rfl⟩
    · exact ⟨c.timer, rfl⟩
  · exact ⟨c.timer, rfl⟩

/-- Only a stalled connection keeps what is queued for its peer. -/
theorem tick_snd (now : Nat) (c : Connection) : ∃ t, (c.tick now).2 =
    if c.stalled = true then { c with timer := t }
    else { c with outbound := [], delivered := c.delivered ++ c.outbound, timer := t } := by
  obtain ⟨t, ht⟩ := c.drain.2.expire_snd now
  refine ⟨t, ht.trans ?_⟩
  rw [drain_snd]
  split <;> rfl

end BoundedStreams.Connection

namespace BoundedStreams.Network

theorem isOpen_eq (n : Network) (s : SocketId) : n.isOpen s = (n.get? s).isSome := rfl

theorem get?_update (n : Network) (s t : SocketId) (f : Connection → Connection) :
    (n.update s f).get? t = if s = t then (n.get? t).map f else n.get? t :=
  Table.get?_modify n.connections s t f

@[simp] theorem get?_enqueue (n : Network) (s t : SocketId) (k : EventKind) :
    (n.enqueue s k).get? t = n.get? t := rfl

@[simp] theorem get?_advance (n : Network) (d : Nat) (t : SocketId) :
    (n.advance d).get? t = n.get? t := by
  unfold advance
  split <;> rfl

theorem get?_peerSend (n : Network) (s t : SocketId) (bs : Bytes) :
    (n.peerSend s bs).get? t =
      if s = t then (n.get? t).map fun c => { c with inbound := c.inbound ++ bs } else n.get? t := by
  unfold peerSend
  split
  · rw [get?_enqueue, get?_update]
  · next h =>
    split
    · next ht =>
      subst ht
      have : n.get? s = none := by simpa [Table.contains, get?] using h
      simp [this]
    · rfl

theorem get?_close (n : Network) (s t : SocketId) :
    (n.close s).get? t = if s = t then none else n.get? t := by
  unfold close
  split
  · exact Table.get?_erase n.connections s t
  · next h =>
    split
    · next ht =>
      subst ht
      simpa [Table.contains, get?] using h
    · rfl

theorem get?_send (n : Network) (s t : SocketId) (bs : Bytes) :
    (n.send s bs).get? t =
      if s = t then (n.get? t).map fun c => { c with outbound := c.outbound ++ bs } else n.get? t :=
  get?_update n s t _

theorem get?_poll (n : Network) (t : SocketId) :
    n.poll.2.get? t = (n.get? t).map fun c => (c.tick n.clock).2 :=
  Table.get?_mapValues n.connections _ t

theorem get?_recv_of_ne (n : Network) {s t : SocketId} (k : Nat) (h : s ≠ t) :
    (n.recv s k).2.get? t = n.get? t := by
  unfold recv
  split
  · simp [get?_update, h]
  · rfl

theorem assignPort_snd (n : Network) (p : Port) : ∃ q, (n.assignPort p).2 = { n with nextPort := q } := by
  unfold assignPort
  split
  · exact ⟨_, rfl⟩
  · exact ⟨n.nextPort, rfl⟩

/-- A bind changes the listeners and what the network gives out next, and nothing else. -/
theorem bind_frame (n : Network) (p : Port) : ∃ q k ls, n.nextId ≤ k ∧
    (n.bind p).2 = { n with nextPort := q, nextId := k, listeners := ls } := by
  obtain ⟨q, hq⟩ := n.assignPort_snd p
  unfold bind
  dsimp only
  rw [hq]
  split
  · exact ⟨q, _, _, Nat.le_refl _, rfl⟩
  · exact ⟨q, _, _, Nat.le_succ _, rfl⟩

end BoundedStreams.Network
