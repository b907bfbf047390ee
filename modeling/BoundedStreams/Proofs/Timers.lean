import BoundedStreams.Proofs.Bystander
import BoundedStreams.Proofs.Mirror
import BoundedStreams.Proofs.Turnover
import BoundedStreams.Proofs.Usage

/-! The timers of connections. Of all the instants that were asked for since the connection was opened or
its timer last went off, the timer holds the earliest, and the first poll at or after that instant reports
it, once. -/

namespace BoundedStreams

lemma min?_concat (ts : List Nat) (t : Nat) :
    (ts ++ [t]).min? = some (ts.min?.elim t (min · t)) := by
  cases ts with
  | nil => rfl
  | cons u ts => simp only [List.cons_append, List.min?_cons', List.foldl_append, Option.elim_some,
      List.foldl_cons, List.foldl_nil]

namespace Connection

def isDue (now : Nat) (q : Connection) : Bool := q.timer.any (· ≤ now)

lemma expire_eq (now : Nat) (q : Connection) :
    q.expire now = (q.isDue now, if q.isDue now then { q with timer := none } else q) := by
  rw [expire, isDue]
  cases ht : q.timer with
  | none => rfl
  | some due => by_cases hd : due ≤ now <;> simp [hd]

lemma timer_drain (q : Connection) : q.drain.2.timer = q.timer := by
  rw [drain_snd]
  split <;> rfl

/-- A tick reports the timer if it is due, and then clears it. -/
lemma timer_tick (now : Nat) (q : Connection) :
    (q.tick now).1.count .timer = (if q.isDue now then 1 else 0) ∧
      (q.tick now).2.timer = if q.isDue now then none else q.timer := by
  have hsame : q.drain.2.isDue now = q.isDue now := by rw [isDue, timer_drain, isDue]
  have hcount : ∀ sent fired : Bool, (((if sent then [.sent] else []) ++
      (if fired then [.timer] else []) ++ [.poll] : List EventKind)).count .timer =
        if fired then 1 else 0 := by decide
  rw [tick]
  dsimp only
  rw [expire_eq, hsame]
  refine ⟨hcount _ _, ?_⟩
  split
  · rfl
  · exact q.timer_drain

end Connection

namespace Network

def isDue (n : Network) (c : SocketId) : Bool := (n.timerDue? c).any (· ≤ n.clock)

/-- Connections may have been lost, but the others have their timers as before, and no instant was out of
range. -/
structure KeepsTimers (n n' : Network) : Prop where
  overrun : n'.overrun = n.overrun
  timer : ∀ c q', n'.get? c = some q' → ∃ q, n.get? c = some q ∧ q'.timer = q.timer

variable {n n' : Network} {c : SocketId}

lemma KeepsTimers.refl (n : Network) : n.KeepsTimers n := ⟨rfl, fun _ q hq => ⟨q, hq, rfl⟩⟩

lemma KeepsTimers.of_eq (h : n' = n) : n.KeepsTimers n' := h ▸ .refl n

lemma KeepsTimers.trans {n₁ n₂ n₃ : Network} (h : n₁.KeepsTimers n₂) (h' : n₂.KeepsTimers n₃) :
    n₁.KeepsTimers n₃ := by
  refine ⟨h'.overrun.trans h.overrun, fun c q hq => ?_⟩
  obtain ⟨q₂, hq₂, ht₂⟩ := h'.timer c q hq
  obtain ⟨q₁, hq₁, ht₁⟩ := h.timer c q₂ hq₂
  exact ⟨q₁, hq₁, ht₂.trans ht₁⟩

lemma KeepsTimers.of_get? (ho : n'.overrun = n.overrun) (hg : ∀ c, n'.get? c = n.get? c) :
    n.KeepsTimers n' :=
  ⟨ho, fun c q hq => ⟨q, (hg c).symm.trans hq, rfl⟩⟩

lemma Sheds.keepsTimers (h : n.Sheds n') : n.KeepsTimers n' :=
  ⟨h.overrun, fun _ q hq => ⟨q, h.get? hq, rfl⟩⟩

lemma keepsTimers_update (n : Network) (s : SocketId) {f : Connection → Connection}
    (hf : ∀ q, (f q).timer = q.timer) : n.KeepsTimers (n.update s f) := by
  refine ⟨rfl, fun c q' hq' => ?_⟩
  rw [get?_update] at hq'
  split at hq'
  · obtain ⟨q, hq, rfl⟩ := Option.map_eq_some_iff.mp hq'
    exact ⟨q, hq, hf q⟩
  · exact ⟨q', hq', rfl⟩

lemma KeepsTimers.enqueue (h : n.KeepsTimers n') (s : SocketId) (k : EventKind) :
    n.KeepsTimers (n'.enqueue s k) := ⟨h.overrun, h.timer⟩

lemma keepsTimers_bind (n : Network) (p : Port) : n.KeepsTimers (n.bind p).2 :=
  .of_get? (n.overrun_bind p) (n.get?_bind p)

lemma keepsTimers_recv (n : Network) (s : SocketId) (k : Nat) : n.KeepsTimers (n.recv s k).2 := by
  rw [recv]
  split
  · exact n.keepsTimers_update s fun _ => rfl
  · exact .refl n

lemma KeepsTimers.isOpen (h : n.KeepsTimers n') (hc : n'.isOpen c = true) : n.isOpen c = true := by
  obtain ⟨q', hq'⟩ := Option.isSome_iff_exists.mp hc
  obtain ⟨q, hq, -⟩ := h.timer c q' hq'
  rw [isOpen_eq, hq]
  rfl

lemma KeepsTimers.timerDue? (h : n.KeepsTimers n') (hc : n'.isOpen c = true) :
    n'.timerDue? c = n.timerDue? c := by
  obtain ⟨q', hq'⟩ : ∃ q', n'.get? c = some q' := Option.isSome_iff_exists.mp hc
  obtain ⟨q, hq, ht⟩ := h.timer c q' hq'
  rw [Network.timerDue?, hq', Network.timerDue?, hq]
  exact ht

/-! ### Requests -/

lemma isOpen_schedule (n : Network) (s : SocketId) (d : Nat) (c : SocketId) :
    (n.schedule s d).isOpen c = n.isOpen c := (n.sameTraffic_schedule s d).opened c

lemma inboundLen_schedule (n : Network) (s : SocketId) (d : Nat) (c : SocketId) :
    (n.schedule s d).inboundLen c = n.inboundLen c := by
  rw [schedule]
  split
  · rw [inboundLen, get?_update, inboundLen]
    split <;> cases n.get? c <;> rfl
  · rfl

/-- A timer is set to the new instant, or stays if it goes off before. -/
lemma timerDue?_schedule {s : SocketId} {d : Nat} (ho : (n.schedule s d).overrun = false)
    (hc : n.isOpen c = true) : n.overrun = false ∧ (n.schedule s d).timerDue? c =
      if s = c then some ((n.timerDue? c).elim (n.clock + d) (min · (n.clock + d)))
      else n.timerDue? c := by
  obtain ⟨q, hq⟩ := Option.isSome_iff_exists.mp hc
  rw [schedule] at ho ⊢
  split at ho
  · next t ht =>
    obtain ⟨rfl, -⟩ := Duration.after?_eq_some_iff.mp ht
    have hq' : n.get? c = some q := hq
    refine ⟨ho, ?_⟩
    rw [timerDue?, get?_update, timerDue?, hq']
    split <;> rfl
  · cases ho

/-! ### Polls -/

/-- The ids of the connections differ, and no report of a timer waits in the queue. -/
structure Ticking (n : Network) : Prop where
  distinct : n.connections.keys.Nodup
  unreported : ∀ c, ⟨c, .timer⟩ ∉ n.queue

lemma Ticking.of_eq (h : n.Ticking) (hk : n'.connections.keys = n.connections.keys)
    (hq : n'.queue = n.queue) : n'.Ticking := ⟨hk ▸ h.distinct, hq ▸ h.unreported⟩

lemma Ticking.update (h : n.Ticking) (s : SocketId) (f : Connection → Connection) :
    (n.update s f).Ticking := h.of_eq (Table.keys_modify _ s f) rfl

lemma Ticking.enqueue {s : SocketId} {k : EventKind} (h : n.Ticking)
    (hn : n'.connections.keys.Nodup) (hq : n'.queue = n.queue ++ [⟨s, k⟩]) (hk : .timer ≠ k) :
    n'.Ticking := by
  refine ⟨hn, fun c hmem => ?_⟩
  rw [hq, List.mem_append, List.mem_singleton] at hmem
  exact hmem.elim (h.unreported c) fun he => hk (SocketEvent.mk.inj he).2

lemma Ticking.close (h : n.Ticking) (s : SocketId) : (n.close s).Ticking := by
  rw [Network.close]
  split
  · refine h.enqueue (s := s) (k := .closed) ?_ rfl (by decide)
    rw [Table.keys_erase]
    exact h.distinct.filter _
  · exact h

lemma Ticking.perform (h : n.Ticking) (a : Action) : (n.perform a).2.Ticking := by
  cases a with
  | connect p =>
    show (n.connect p).2.Ticking
    rcases n.connect_eq p with he | ⟨l, he⟩
    · rw [he]
      exact h
    · rw [he]
      exact h.enqueue (Table.nodup_keys_set h.distinct _ _) rfl fun he => by cases he
  | peerSend s bytes =>
    show (n.peerSend s bytes).Ticking
    rw [peerSend]
    split
    · exact h.enqueue (h.update s _).distinct rfl (by decide)
    · exact h
  | peerClose s | abort s => exact h.close s
  | poll =>
    have hkeys : n.poll.2.connections.keys = n.connections.keys := Table.keys_mapValues _ _
    exact ⟨hkeys ▸ h.distinct, fun c => List.not_mem_nil⟩
  | advance d =>
    show (n.advance d).Ticking
    rw [advance]
    split <;> exact h.of_eq rfl rfl
  | bind p =>
    obtain ⟨q, k, ls, -, hn⟩ := n.bind_frame p
    show (n.bind p).2.Ticking
    rw [hn]
    exact h.of_eq rfl rfl
  | peerTake s =>
    show (n.peerTake s).2.Ticking
    rw [peerTake]
    split
    · exact h.update s _
    · exact h
  | recv s k =>
    show (n.recv s k).2.Ticking
    rw [recv]
    split
    · exact h.update s _
    · exact h
  | schedule s d =>
    show (n.schedule s d).Ticking
    rw [schedule]
    split
    · exact h.update s _
    · exact h.of_eq rfl rfl
  | stall s on | send s bytes => exact h.update s _
  | timer s | socket s | listening p | openCount | now | closeListener s => exact h.of_eq rfl rfl

lemma ticking_after (as : List Action) : (initial.after as).Ticking :=
  after_invariant (P := fun _ n => n.Ticking) (fun _ _ a h => h.perform a) as []
    ⟨List.nodup_nil, fun _ => List.not_mem_nil⟩

lemma count_ticks (now : Nat) (c : SocketId) (es : List (SocketId × Connection))
    (hn : (es.map (·.1)).Nodup) :
    (es.flatMap fun e => (e.2.tick now).1.map (⟨e.1, ·⟩)).count (⟨c, .timer⟩ : SocketEvent) =
      if (Table.find es c).any (·.isDue now) then 1 else 0 := by
  induction es with
  | nil => rfl
  | cons e es ih =>
    obtain ⟨hnot, hn⟩ := List.nodup_cons.mp hn
    rw [List.flatMap_cons, List.count_append, ih hn, Table.find]
    by_cases he : e.1 = c
    · subst he
      have hnone : Table.find es e.1 = none := (Table.get?_eq_none_iff ⟨es⟩ e.1).mpr hnot
      have hinj : Function.Injective (SocketEvent.mk e.1) := fun _ _ h => (SocketEvent.mk.inj h).2
      rw [List.count_map_of_injective _ _ hinj, (e.2.timer_tick now).1, hnone, if_pos rfl]
      rfl
    · have hzero : ((e.2.tick now).1.map (⟨e.1, ·⟩)).count (⟨c, .timer⟩ : SocketEvent) = 0 := by
        refine List.count_eq_zero.mpr fun hmem => ?_
        obtain ⟨k, -, hk⟩ := List.mem_map.mp hmem
        exact he (SocketEvent.mk.inj hk).1
      rw [hzero, if_neg he, Nat.zero_add]

/-- A poll reports the timer of a connection if it is due, and clears it then. -/
lemma Ticking.poll (h : n.Ticking) (c : SocketId) :
    n.poll.1.count ⟨c, .timer⟩ = (if n.isDue c then 1 else 0) ∧
      n.poll.2.timerDue? c = if n.isDue c then none else n.timerDue? c := by
  have hdue : n.isDue c = (n.get? c).any (·.isDue n.clock) := by
    rw [isDue, Network.timerDue?]
    cases n.get? c <;> rfl
  constructor
  · have hticks := count_ticks n.clock c n.connections.entries h.distinct
    rw [Network.poll, List.count_append, List.count_eq_zero.mpr (h.unreported c), Nat.zero_add, hticks,
      hdue]
    rfl
  · rw [Network.timerDue?, get?_poll, hdue, Network.timerDue?]
    cases n.get? c with
    | none => rfl
    | some q => exact (q.timer_tick n.clock).2

/-! ### Actions -/

/-- Whether an action may ask for an instant or report a timer. -/
def Action.minds : Action → Bool
  | .schedule _ _ | .poll => true
  | _ => false

/-- What an action does to the timers. -/
inductive Timing (n : Network) : Action → Network → Prop where
  | kept {a : Action} {n' : Network} (ha : a.minds = false) (h : n.KeepsTimers n') : Timing n a n'
  | connect (p : Port) (l : SocketId) : Timing n (.connect p) { n with
      nextId := n.nextId + 1
      connections := n.connections.set ⟨n.nextId⟩ .opened
      queue := n.queue ++ [⟨⟨n.nextId⟩, .accepted l⟩] }
  | schedule (s : SocketId) (d : Nat) : Timing n (.schedule s d) (n.schedule s d)
  | poll : Timing n .poll n.poll.2

lemma timing_perform {a : Action} (ho : (n.perform a).2.overrun = false) :
    n.Timing a (n.perform a).2 := by
  cases a with
  | schedule s d => exact .schedule s d
  | poll => exact .poll
  | connect p =>
    simp only [perform]
    rcases n.connect_eq p with he | ⟨l, he⟩
    · rw [he]
      exact .kept rfl (.refl n)
    · rw [he]
      exact .connect p l
  | advance d =>
    refine .kept rfl ?_
    simp only [perform, advance] at ho ⊢
    split
    · exact .of_get? rfl fun _ => rfl
    · next hd =>
      rw [hd] at ho
      cases ho
  | peerSend s bytes =>
    refine .kept rfl ?_
    simp only [perform, peerSend]
    split
    · refine .enqueue ?_ s .received
      exact n.keepsTimers_update s fun _ => rfl
    · exact .refl n
  | peerTake s =>
    refine .kept rfl ?_
    simp only [perform, peerTake]
    split
    · exact n.keepsTimers_update s fun _ => rfl
    · exact .refl n
  | peerClose s | abort s => exact .kept rfl (Sheds.keepsTimers ⟨[s], rfl⟩)
  | stall s on | send s bytes => exact .kept rfl (n.keepsTimers_update s fun _ => rfl)
  | bind p => exact .kept rfl (n.keepsTimers_bind p)
  | recv s k => exact .kept rfl (n.keepsTimers_recv s k)
  | timer s | socket s | listening p | openCount | now | closeListener s =>
    exact .kept rfl (.of_get? rfl fun _ => rfl)

end Network

namespace Site

variable {κ : Type} {s : Site κ}

/-- What a read does to the timers. Only bytes that it leaves behind make it ask for an instant. -/
inductive Paces (s : Site κ) (h : Handle) : Except StreamError Bytes × Site κ → Prop where
  | kept (result : Except StreamError Bytes) (s' : Site κ) (hk : s.network.KeepsTimers s'.network)
      (he : ∀ r c bytes, s.manager.streams.get? h = some r → r.socket = some c → result = .ok bytes →
        s.network.isOpen c = true ∧ s'.network.isOpen c = true ∧ s'.network.inboundLen c = 0) :
      Paces s h (result, s')
  | asks (r : Stream κ) (c : SocketId) (bytes : Bytes) (n : Network) (s' : Site κ)
      (hr : s.manager.streams.get? h = some r) (hc : r.socket = some c)
      (hk : s.network.KeepsTimers n) (ho : n.isOpen c = true) (hlen : 0 < s'.network.inboundLen c)
      (hn : s'.network = n.schedule c s.manager.options.activePushDelay) (hclock : n.clock = s.now) :
      Paces s h (.ok bytes, s')

lemma paces_read (s : Site κ) (h : Handle) (k : Nat) : Paces s h (s.read h k) := by
  rw [read]
  split
  · next hnone =>
    refine .kept _ _ (.refl _) fun r c bytes hr => ?_
    rw [hnone] at hr
    cases hr
  · next r hr =>
    split
    · next hc =>
      refine .kept _ _ (.refl _) fun r' c bytes hr' hc' _ => ?_
      cases hr.symm.trans hr'
      cases hc.symm.trans hc'
    · next c hc =>
      split
      · refine .kept _ _ (.refl _) fun _ _ _ _ _ hok => ?_
        cases hok
      · next hk =>
        simp only [Bool.or_eq_true, decide_eq_true_eq, not_or] at hk
        have hopen : s.network.isOpen c = true := by
          refine Network.isOpen_eq _ c ▸ Option.isSome_iff_ne_none.mpr fun hnone => hk.2 ?_
          rw [Network.inboundLen, hnone]
          rfl
        have hkeeps := s.network.keepsTimers_recv c k
        have hopen' : (s.network.recv c k).2.isOpen c = true :=
          ((s.network.sameTraffic_recv c k).opened c).trans hopen
        have hclock := s.network.clock_recv c k
        generalize s.network.recv c k = p at hkeeps hopen' hclock ⊢
        obtain ⟨bytes, n⟩ := p
        dsimp only at hkeeps hopen' hclock ⊢
        split
        · next hlen =>
          refine .asks r c bytes n _ hr hc hkeeps hopen' ?_ rfl hclock
          exact Nat.lt_of_lt_of_eq hlen (n.inboundLen_schedule c _ c).symm
        · next hlen =>
          refine .kept _ _ hkeeps fun r' c' _ hr' hc' _ => ?_
          cases hr.symm.trans hr'
          cases hc.symm.trans hc'
          exact ⟨hopen, hopen', Nat.eq_zero_of_not_pos hlen⟩

/-- Bytes left behind bring the timer forward, if it goes off later than after the push delay. -/
lemma timer_of_read {h : Handle} {r : Stream κ} {c : SocketId} {k : Nat} {bytes : Bytes}
    (hr : s.manager.streams.get? h = some r) (hc : r.socket = some c)
    (hok : (s.read h k).1 = .ok bytes) (ho : (s.read h k).2.network.overrun = false) :
    (0 < (s.read h k).2.network.inboundLen c →
      ∃ due, (s.read h k).2.network.timerDue? c = some due ∧
        due ≤ s.now + s.manager.options.activePushDelay) ∧
    ((s.read h k).2.network.inboundLen c = 0 →
      (s.read h k).2.network.timerDue? c = s.network.timerDue? c) := by
  have hpaces := s.paces_read h k
  generalize s.read h k = p at hpaces hok ho ⊢
  cases hpaces with
  | kept result s' hk he =>
    obtain ⟨-, hopen, hlen⟩ := he r c bytes hr hc hok
    exact ⟨fun hpos => absurd hlen (Nat.ne_of_gt hpos), fun _ => hk.timerDue? hopen⟩
  | asks q d bytes' n s' hq hqd hk hopen hlen hn hclock =>
    cases hr.symm.trans hq
    cases hc.symm.trans hqd
    have hsched : (n.schedule c s.manager.options.activePushDelay).overrun = false := hn ▸ ho
    obtain ⟨-, htimer⟩ := Network.timerDue?_schedule hsched hopen
    rw [if_pos rfl, hclock] at htimer
    refine ⟨fun _ => ⟨_, hn ▸ htimer, ?_⟩, fun hzero => absurd hzero (Nat.ne_of_gt hlen)⟩
    cases n.timerDue? c with
    | none => exact Nat.le_refl _
    | some t => exact Nat.min_le_right _ _

lemma keepsTimers_call (s : Site κ) (call : Call Handle κ) (hread : ∀ h k, call ≠ .read h k) :
    s.network.KeepsTimers (call.perform s).2.network := by
  cases call with
  | read h k => exact absurd rfl (hread h k)
  | openListener callback =>
    have hb := s.network.keepsTimers_bind s.manager.port
    simp only [Call.perform, openListener]
    split
    · exact .refl _
    · split <;> next heq => rwa [heq] at hb
  | closeListener =>
    simp only [Call.perform]
    cases hl : s.manager.listener with
    | none =>
      rw [closeListener_of_none hl]
      exact .refl _
    | some l =>
      have h₁ : s.network.KeepsTimers (s.network.closeListener l.socket) := .of_get? rfl fun _ => rfl
      exact h₁.trans (sheds_closeListener hl).keepsTimers
  | port | closeOutput h | state h | stats => exact .refl _
  | accept => exact .of_eq s.network_accept
  | close h => exact (s.sheds_close h).keepsTimers
  | arm h want callback => exact .of_eq (s.network_arm h want callback)
  | write h bytes =>
    simp only [Call.perform, write]
    split
    · exact .refl _
    · split
      · exact .refl _
      · split
        · exact .refl _
        · exact s.network.keepsTimers_update _ fun _ => rfl

lemma keepsTimers_release (s : Site κ) : s.network.KeepsTimers s.release.network :=
  (s.keepsTimers_call .closeListener fun _ _ he => by cases he).trans s.sheds_release.keepsTimers

end Site

/-- The instant at which a stride asks for the timer of `c`, if it does. A read asks when it leaves bytes
behind. -/
def Stride.deadline? {κ : Type} (x : Stride κ) (c : SocketId) : Option Nat :=
  match x.move, x.outcome with
  | .network (.schedule d delay), _ => if d = c then some (x.time + delay) else none
  | .call i (.read h _), .call (.read (.ok _)) =>
    if x.before.socket? i h = some c ∧ 0 < x.after.network.inboundLen c then
      (x.before.manager? i).map fun m => x.time + m.options.activePushDelay
    else none
  | _, _ => none

/-- The stride opens the connection `c` or is told that its timer went off. -/
def Stride.Resets {κ : Type} (x : Stride κ) (c : SocketId) : Prop :=
  x.before.network.isOpen c = false ∧ x.after.network.isOpen c = true ∨ ⟨c, .timer⟩ ∈ x.polled

namespace Moment

variable {κ : Type} {w w' : Moment κ} {mv : Move κ} {o : Outcome κ} {c : SocketId}

lemma socket?_eq_some_iff {i : Nat} {h : Handle} : w.socket? i h = some c ↔ ∃ m r,
    w.manager? i = some m ∧ m.streams.get? h = some r ∧ r.socket = some c := by
  simp only [socket?, Option.bind_eq_some_iff, exists_and_left]

/-- What a step makes of the timer of a connection that is open after it. -/
inductive Timekeeping (x : Stride κ) (c : SocketId) : Prop where
  | reset (ho : x.before.network.overrun = false) (hr : x.Resets c)
      (ht : x.after.network.timerDue? c = none)
  | asked (ho : x.before.network.overrun = false) (hr : ¬ x.Resets c)
      (hopen : x.before.network.isOpen c = true)
      (ht : x.after.network.timerDue? c = (x.deadline? c).elim (x.before.network.timerDue? c)
        fun t => some ((x.before.network.timerDue? c).elim t (min · t)))

lemma not_resets {x : Stride κ} (ho : x.before.network.isOpen c = true)
    (hp : ⟨c, .timer⟩ ∉ x.polled) : ¬ x.Resets c := by
  rintro (⟨hclosed, -⟩ | hmem)
  · cases ho.symm.trans hclosed
  · exact hp hmem

section Timekeeping

variable {x : Stride κ} (ho : x.after.network.overrun = false) (hc : x.after.network.isOpen c = true)

include ho hc

lemma timekeeping_of_keeps (h : x.before.network.KeepsTimers x.after.network) (hp : x.polled = [])
    (hd : x.deadline? c = none) : Timekeeping x c := by
  refine .asked (h.overrun.symm.trans ho) (not_resets (h.isOpen hc) (hp ▸ List.not_mem_nil))
    (h.isOpen hc) ?_
  rw [hd]
  exact h.timerDue? hc

lemma timekeeping_of_schedule {s : SocketId} {d : Nat} {n : Network}
    (hk : x.before.network.KeepsTimers n) (hclock : n.clock = x.time)
    (hn : x.after.network = n.schedule s d) (hp : x.polled = [])
    (hd : x.deadline? c = if s = c then some (x.time + d) else none) : Timekeeping x c := by
  rw [hn] at ho hc
  rw [n.isOpen_schedule] at hc
  obtain ⟨hover, htimer⟩ := Network.timerDue?_schedule ho hc
  refine .asked (hk.overrun.symm.trans hover) (not_resets (hk.isOpen hc) (hp ▸ List.not_mem_nil))
    (hk.isOpen hc) ?_
  rw [hn, htimer, hd, hk.timerDue? hc, hclock]
  split <;> rfl

lemma timekeeping_of_poll (ht : x.before.network.Ticking)
    (hn : x.after.network = x.before.network.poll.2) (hp : x.polled = x.before.network.poll.1)
    (hd : x.deadline? c = none) : Timekeeping x c := by
  obtain ⟨hcount, htimer⟩ := ht.poll c
  rw [← hp] at hcount
  rw [← hn] at htimer
  rw [hn] at ho hc
  rw [Network.isOpen_poll] at hc
  cases hdue : x.before.network.isDue c with
  | true =>
    rw [hdue] at hcount htimer
    exact .reset ho (.inr (List.count_pos_iff.mp (hcount ▸ Nat.one_pos))) htimer
  | false =>
    rw [hdue] at hcount htimer
    refine .asked ho (not_resets hc (List.count_eq_zero.mp hcount)) hc ?_
    rw [hd]
    exact htimer

end Timekeeping

lemma timekeeping_of_read {i : Nat} {s : Site κ} (hs : w.site? i = some s) (h : Handle) (k : Nat)
    (ho : (s.read h k).2.network.overrun = false) (hc : (s.read h k).2.network.isOpen c = true) :
    Timekeeping ⟨w, .call i (.read h k), .call (.read (s.read h k).1), w.put i (s.read h k).2⟩ c := by
  obtain ⟨hm, hn, -⟩ := (w.site?_eq_some_iff i s).mp hs
  have hpaces := s.paces_read h k
  generalize s.read h k = p at hpaces ho hc ⊢
  cases hpaces with
  | kept result s' hk he =>
    refine timekeeping_of_keeps ho hc (hn ▸ hk) rfl ?_
    cases result with
    | error e => rfl
    | ok bytes =>
      refine if_neg fun hleft => ?_
      obtain ⟨hsocket, hlen⟩ := hleft
      obtain ⟨m, r, hm', hr, hrc⟩ := socket?_eq_some_iff.mp hsocket
      cases hm.symm.trans hm'
      exact Nat.ne_of_gt hlen (he r c bytes hr hrc rfl).2.2
  | asks r d bytes n s' hr hrd hk hopen hlen hn' hclock =>
    refine timekeeping_of_schedule ho hc (hn ▸ hk) (hclock.trans (site?_now hs)) hn' rfl ?_
    have hsocket : w.socket? i h = some d := socket?_eq_some_iff.mpr ⟨_, r, hm, hr, hrd⟩
    show (if w.socket? i h = some c ∧ 0 < s'.network.inboundLen c then
      (w.manager? i).map _ else none) = _
    rw [hsocket, hm]
    by_cases hd : d = c
    · subst hd
      exact (if_pos ⟨rfl, hlen⟩).trans (if_pos rfl).symm
    · rw [if_neg hd]
      exact if_neg fun he => hd (Option.some.inj he.1)

lemma Step.timekeeping (hs : Step w mv o w') (ht : w.network.Ticking)
    (hnew : w.network.isOpen ⟨w.network.nextId⟩ = false) (ho : w'.network.overrun = false)
    (hc : w'.network.isOpen c = true) : Timekeeping ⟨w, mv, o, w'⟩ c := by
  have hsite : ∀ {i : Nat} {s : Site κ} {n : Network}, w.site? i = some s →
      s.network.KeepsTimers n → w.network.KeepsTimers n := by
    intro i s n hs hk
    rw [((w.site?_eq_some_iff i s).mp hs).2.1]
    exact hk
  cases hs with
  | network a hact =>
    have htiming := Network.timing_perform ho
    generalize hn : (w.network.perform a).2 = n at ho hc htiming ⊢
    cases htiming with
    | kept ha hk => refine timekeeping_of_keeps ho hc hk ?_ ?_ <;> cases a <;> first | rfl | cases ha
    | connect p l =>
      by_cases hid : (⟨w.network.nextId⟩ : SocketId) = c
      · subst hid
        refine .reset ho (.inl ⟨hnew, hc⟩) ?_
        simp [Network.timerDue?, Network.get?, Table.get?_set, Connection.opened]
      · have hget := Table.get?_set w.network.connections ⟨w.network.nextId⟩ c .opened
        rw [if_neg hid] at hget
        have hopen : w.network.isOpen c = true := by
          rw [Network.isOpen, Table.contains, ← hget]
          exact hc
        refine .asked ho (not_resets hopen List.not_mem_nil) hopen ?_
        exact congrArg (Option.bind · Connection.timer) hget
    | schedule s d => exact timekeeping_of_schedule ho hc (.refl _) rfl rfl rfl rfl
    | poll => exact timekeeping_of_poll ho hc ht rfl rfl rfl
  | note n hact | create p hact => exact timekeeping_of_keeps ho hc (.refl _) rfl rfl
  | call i call s hact hs =>
    by_cases hread : ∃ h k, call = .read h k
    · obtain ⟨h, k, rfl⟩ := hread
      exact timekeeping_of_read hs h k ho hc
    · refine timekeeping_of_keeps ho hc
        (hsite hs (s.keepsTimers_call call fun h k he => hread ⟨h, k, he⟩)) rfl ?_
      cases call <;> first | rfl | exact absurd ⟨_, _, rfl⟩ hread
  | release i s hact hi hs => exact timekeeping_of_keeps ho hc (hsite hs s.keepsTimers_release) rfl rfl
  | begin i s hact hi hs =>
    obtain ⟨-, hn, -⟩ := (w.site?_eq_some_iff i s).mp hs
    exact timekeeping_of_poll ho hc ht (by rw [hn]; rfl) rfl rfl
  | proceed i a fs s hf hs =>
    exact timekeeping_of_keeps ho hc (sheds_proceed hs a fs).keepsTimers rfl rfl
  | leave i a n fs s hf hs =>
    exact timekeeping_of_keeps ho hc (hsite hs s.sheds_leave.keepsTimers) rfl rfl

lemma Step.timer_of_poll (hs : Step w mv o w') (ht : w.network.Ticking)
    (hmv : mv = .network .poll ∨ ∃ i, mv = .begin i) (c : SocketId) :
    (Stride.polled ⟨w, mv, o, w'⟩).count ⟨c, .timer⟩ = (if w.network.isDue c then 1 else 0) ∧
      w'.network.timerDue? c = if w.network.isDue c then none else w.network.timerDue? c := by
  have hpoll := ht.poll c
  rcases hmv with rfl | ⟨i, rfl⟩
  · cases hs with
    | network a hact => exact hpoll
  · cases hs with
    | begin i s hact hi hsite =>
      obtain ⟨-, hn, -⟩ := (w.site?_eq_some_iff i s).mp hsite
      refine ⟨hpoll.1, ?_⟩
      show s.network.poll.2.timerDue? c = _
      rw [← hn]
      exact hpoll.2

lemma ticking_run {ports : PortSource} {mvs : List (Move κ)} {es : History κ}
    (hr : (initial ports).run mvs = some (es, w)) :
    w.network.Ticking ∧ w.network.isOpen ⟨w.network.nextId⟩ = false := by
  refine ⟨?_, isOpen_unborn hr (Nat.le_refl _)⟩
  obtain ⟨as, hn, -⟩ := actions_run hr
  rw [hn]
  exact Network.ticking_after as

/-- The timer holds the earliest of the instants that were asked for since the last reset. -/
lemma timer_earliest {ports : PortSource} {mvs : List (Move κ)} {es : History κ}
    (hr : (initial ports).run mvs = some (es, w)) (ho : w.network.overrun = false)
    (hc : w.network.isOpen c = true) :
    ∃ first x since, (initial ports).trace mvs = first ++ x :: since ∧ x.Resets c ∧
      (∀ y ∈ since, ¬ y.Resets c) ∧
      w.network.timerDue? c = (since.filterMap (·.deadline? c)).min? := by
  refine trace_invariant (P := fun past w => w.network.overrun = false → w.network.isOpen c = true →
    ∃ first x since, past = first ++ x :: since ∧ x.Resets c ∧ (∀ y ∈ since, ¬ y.Resets c) ∧
      w.network.timerDue? c = (since.filterMap (·.deadline? c)).min?)
    (fun _ hopen => by cases hopen) ?_ hr ho hc
  rintro past w mv o w' ⟨mvs, es, hr⟩ hpast hs ho hc
  obtain ⟨ht, hnew⟩ := ticking_run hr
  cases hs.timekeeping ht hnew ho hc with
  | reset hover hreset hnone => exact ⟨past, _, [], rfl, hreset, List.forall_mem_nil _, hnone⟩
  | asked hover hsteady hopen htimer =>
    obtain ⟨first, x, since, rfl, hreset, hsince, hmin⟩ := hpast hover hopen
    refine ⟨first, x, since ++ [⟨w, mv, o, w'⟩], by simp, hreset, ?_, ?_⟩
    · rw [List.forall_mem_append, List.forall_mem_singleton]
      exact ⟨hsince, hsteady⟩
    · rw [htimer, hmin, List.filterMap_append]
      cases hd : Stride.deadline? ⟨w, mv, o, w'⟩ c with
      | none => simp [hd]
      | some t => simp [hd, min?_concat]

/-- The timer of an open connection holds the earliest of the instants that were asked for since the
connection was opened or its timer last went off. A poll, by a turn or not, tells once that the timer went
off and clears it if that instant has come, and else does neither. A read that leaves bytes behind has the
timer go off after the push delay at the latest; any other one does not touch it. -/
theorem timer_fires_once {ports : PortSource} {mvs : List (Move κ)} {es : History κ}
    (hr : (initial ports).run mvs = some (es, w)) (ho : w.network.overrun = false)
    (hc : w.network.isOpen c = true) :
    (∃ first x since, (initial ports).trace mvs = first ++ x :: since ∧ x.Resets c ∧
      (∀ y ∈ since, ¬ y.Resets c) ∧
      w.network.timerDue? c = (since.filterMap (·.deadline? c)).min?) ∧
    (∀ mv o w', w.step mv = some (o, w') → mv = .network .poll ∨ (∃ i, mv = .begin i) →
      (Stride.polled ⟨w, mv, o, w'⟩).count ⟨c, .timer⟩ = (if w.network.isDue c then 1 else 0) ∧
      w'.network.timerDue? c = if w.network.isDue c then none else w.network.timerDue? c) ∧
    ∀ i h k bytes m w', w.step (.call i (.read h k)) = some (.call (.read (.ok bytes)), w') →
      w'.network.overrun = false → w.manager? i = some m → w.socket? i h = some c →
      (0 < w'.network.inboundLen c → ∃ due, w'.network.timerDue? c = some due ∧
        due ≤ w.network.clock + m.options.activePushDelay) ∧
      (w'.network.inboundLen c = 0 → w'.network.timerDue? c = w.network.timerDue? c) := by
  refine ⟨timer_earliest hr ho hc, fun mv o w' hs hmv => ?_, fun i h k bytes m w' hs ho' hm hsocket => ?_⟩
  · exact (step_cases hs).timer_of_poll (ticking_run hr).1 hmv c
  · obtain ⟨m', r, hm', hr', hrc⟩ := socket?_eq_some_iff.mp hsocket
    cases hm.symm.trans hm'
    have hst := step_cases hs
    generalize hreply : Outcome.call (.read (.ok bytes)) = o at hst
    cases hst with
    | call _ _ s hact hsite =>
      obtain ⟨hms, hn, -⟩ := (w.site?_eq_some_iff i s).mp hsite
      cases hm.symm.trans hms
      have hok : (s.read h k).1 = .ok bytes := (Call.Reply.read.inj (Outcome.call.inj hreply)).symm
      rw [hn]
      exact Site.timer_of_read hr' hrc hok ho'

/-- The timer is asked for three times, at last by a read of the stream, and goes off at the second of
these instants. -/
def overlapping : List (Move Unit) :=
  [.create ⟨some 9000, 1, 1, 0, 0, 0, 64, 5⟩, .call 0 (.openListener ()), .network (.connect 9000),
    .network (.peerSend ⟨2⟩ [1, 2, 3, 4]), .begin 0, .proceed, .proceed, .proceed, .proceed, .proceed,
    .call 0 .accept, .network (.schedule ⟨2⟩ 30), .network (.advance 10), .network (.schedule ⟨2⟩ 4),
    .call 0 (.read ⟨0, 1⟩ 2), .network (.advance 4)]

theorem timer_fires_once_overlapping : ∃ es w o w' w'' m,
    (initial .standard).run overlapping = some (es, w) ∧ w.network.timerDue? ⟨2⟩ = some 14 ∧
    w.step (.network .poll) = some (o, w') ∧
    (Stride.polled ⟨w, .network .poll, o, w'⟩).count ⟨⟨2⟩, .timer⟩ = 1 ∧
    w'.network.timerDue? ⟨2⟩ = none ∧ w.manager? 0 = some m ∧ m.options.activePushDelay = 5 ∧
    w.step (.call 0 (.read ⟨0, 1⟩ 1)) = some (.call (.read (.ok [3])), w'') ∧
    ∃ due, w''.network.timerDue? ⟨2⟩ = some due ∧ due ≤ 14 + 5 := by
  have hrun : ∃ es w o w' w'' m, (initial .standard).run overlapping = some (es, w) ∧
      w.network.overrun = false ∧ w.network.isOpen ⟨2⟩ = true ∧ w.network.clock = 14 ∧
      w.network.timerDue? ⟨2⟩ = some 14 ∧ w.step (.network .poll) = some (o, w') ∧
      w.manager? 0 = some m ∧ m.options.activePushDelay = 5 ∧ w.socket? 0 ⟨0, 1⟩ = some ⟨2⟩ ∧
      w.step (.call 0 (.read ⟨0, 1⟩ 1)) = some (.call (.read (.ok [3])), w'') ∧
      w''.network.overrun = false ∧ 0 < w''.network.inboundLen ⟨2⟩ :=
    ⟨_, _, _, _, _, _, rfl, rfl, rfl, rfl, rfl, rfl, rfl, rfl, rfl, rfl, rfl, by decide⟩
  obtain ⟨es, w, o, w', w'', m, hr, ho, hc, hclock, htimer, hpoll, hm, hdelay, hsocket, hread, ho'',
    hleft⟩ := hrun
  obtain ⟨-, hfires, hreads⟩ := timer_fires_once hr ho hc
  have hdue : w.network.isDue ⟨2⟩ = true := by
    rw [Network.isDue, htimer, hclock]
    rfl
  have hfired := hfires _ o w' hpoll (.inl rfl)
  rw [if_pos hdue, if_pos hdue] at hfired
  have hasked := (hreads 0 ⟨0, 1⟩ 1 [3] m w'' hread ho'' hm hsocket).1 hleft
  rw [hclock, hdelay] at hasked
  exact ⟨es, w, o, w', w'', m, hr, htimer, hpoll, hfired.1, hfired.2, hm, hdelay, hread, hasked⟩

end Moment

end BoundedStreams
