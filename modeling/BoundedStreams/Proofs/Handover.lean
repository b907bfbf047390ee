import BoundedStreams.Proofs.Exchange
import BoundedStreams.Proofs.Usage

/-! What polls hand over to the peer of a connection, and what becomes of it. The peer takes it in order, or
it is lost with the connection. -/

namespace BoundedStreams

namespace Network

/-- The bytes of a connection that are queued for its peer. -/
def outbound (n : Network) (c : SocketId) : Bytes := (n.get? c).elim [] (·.outbound)

/-- The bytes of a connection that reached its peer, which has not taken them. -/
def delivered (n : Network) (c : SocketId) : Bytes := (n.get? c).elim [] (·.delivered)

end Network

namespace Stride

variable {κ : Type}

/-- The bytes that a poll moves out of the queue of a connection. -/
def handed (x : Stride κ) (c : SocketId) : Bytes :=
  match x.move with
  | .begin _ | .network .poll => (x.before.network.outbound c).take
      ((x.before.network.outbound c).length - (x.after.network.outbound c).length)
  | _ => []

/-- The bytes that the peer of a connection is given when it asks for what reached it. -/
def fetched (x : Stride κ) (c : SocketId) : Bytes :=
  match x.move, x.outcome with
  | .network (.peerTake d), .network (.bytes bs) => if d = c then bs else []
  | _, _ => []

def Ends (x : Stride κ) (c : SocketId) : Prop :=
  x.before.network.isOpen c = true ∧ x.after.network.isOpen c = false

instance (x : Stride κ) (c : SocketId) : Decidable (x.Ends c) := inferInstanceAs (Decidable (_ ∧ _))

/-- The bytes that had reached the peer of a connection and were not taken when the connection ended. -/
def lost (x : Stride κ) (c : SocketId) : Bytes :=
  if x.Ends c then x.before.network.delivered c else []

end Stride

namespace Connection

/-- A tick moves the first of what is queued behind what reached the peer. -/
lemma tick_hands (now : Nat) (q : Connection) : ∃ bs, q.outbound = bs ++ (q.tick now).2.outbound ∧
    (q.tick now).2.delivered = q.delivered ++ bs := by
  obtain ⟨t, ht⟩ := q.tick_snd now
  rw [ht]
  split
  · exact ⟨[], rfl, (List.append_nil _).symm⟩
  · exact ⟨q.outbound, (List.append_nil _).symm, rfl⟩

end Connection

namespace Network

variable {n n' : Network} {c : SocketId}

lemma get?_of_closed (h : n.isOpen c = false) : n.get? c = none := by
  rwa [isOpen_eq, Option.isSome_eq_false_iff, Option.isNone_iff_eq_none] at h

lemma outbound_of_closed (h : n.isOpen c = false) : n.outbound c = [] := by
  rw [outbound, get?_of_closed h, Option.elim_none]

lemma delivered_of_closed (h : n.isOpen c = false) : n.delivered c = [] := by
  rw [delivered, get?_of_closed h, Option.elim_none]

lemma peerTake_fst (n : Network) (c : SocketId) : (n.peerTake c).1 = n.delivered c := by
  rw [peerTake, delivered]
  cases n.get? c <;> rfl

lemma poll_hands (n : Network) (c : SocketId) : ∃ bs, n.outbound c = bs ++ n.poll.2.outbound c ∧
    n.poll.2.delivered c = n.delivered c ++ bs := by
  rw [outbound, outbound, delivered, delivered, get?_poll]
  cases n.get? c with
  | none => exact ⟨[], rfl, rfl⟩
  | some q => exact q.tick_hands n.clock

lemma delivered_peerTake (n : Network) (c : SocketId) : (n.peerTake c).2.delivered c = [] := by
  rw [peerTake]
  cases hq : n.get? c with
  | none =>
    dsimp only
    rw [delivered, hq, Option.elim_none]
  | some q =>
    dsimp only
    rw [delivered, get?_update, if_pos rfl, hq, Option.map_some, Option.elim_some]

lemma delivered_connect (hnew : n.isOpen ⟨n.nextId⟩ = false) (p : Port) :
    (n.connect p).2.delivered ⟨n.nextId⟩ = [] := by
  rcases n.connect_eq p with h | ⟨l, h⟩ <;> rw [h]
  · exact delivered_of_closed hnew
  · rw [delivered, get?, Table.get?_set, if_pos rfl, Option.elim_some]
    rfl

/-- If the connection `c` is open, it was open before, and the same bytes lie with its peer. -/
def Retains (c : SocketId) (n n' : Network) : Prop :=
  n'.isOpen c = true → n.isOpen c = true ∧ n'.delivered c = n.delivered c

lemma Retains.refl (c : SocketId) (n : Network) : Retains c n n := fun h => ⟨h, rfl⟩

lemma Retains.trans {n₁ n₂ n₃ : Network} (h : Retains c n₁ n₂) (h' : Retains c n₂ n₃) :
    Retains c n₁ n₃ := by
  intro hopen
  obtain ⟨hopen₂, hsame₂⟩ := h' hopen
  obtain ⟨hopen₁, hsame₁⟩ := h hopen₂
  exact ⟨hopen₁, hsame₂.trans hsame₁⟩

lemma Retains.of_get? (h : ∀ q, n'.get? c = some q → n.get? c = some q) : Retains c n n' := by
  intro hopen
  obtain ⟨q, hq'⟩ : ∃ q, n'.get? c = some q := Option.isSome_iff_exists.mp hopen
  have hq := h q hq'
  rw [isOpen_eq, delivered, delivered, hq', hq]
  exact ⟨rfl, rfl⟩

lemma Retains.of_eq (h : n'.get? c = n.get? c) : Retains c n n' := .of_get? fun _ hq => h ▸ hq

lemma Retains.of_ite {d : SocketId} {f : Connection → Connection}
    (hf : d = c → ∀ q, (f q).delivered = q.delivered)
    (h : n'.get? c = if d = c then (n.get? c).map f else n.get? c) : Retains c n n' := by
  split at h
  · next hd =>
    intro hopen
    obtain ⟨q', hq'⟩ : ∃ q', n'.get? c = some q' := Option.isSome_iff_exists.mp hopen
    obtain ⟨q, hq, rfl⟩ := Option.map_eq_some_iff.mp (h.symm.trans hq')
    rw [isOpen_eq, delivered, delivered, hq', hq]
    exact ⟨rfl, hf hd q⟩
  · exact .of_eq h

lemma retains_update (n : Network) (d : SocketId) {f : Connection → Connection}
    (hf : d = c → ∀ q, (f q).delivered = q.delivered) : Retains c n (n.update d f) :=
  .of_ite hf (n.get?_update d c f)

lemma retains_schedule (n : Network) (d : SocketId) (t : Nat) : Retains c n (n.schedule d t) := by
  rw [schedule]
  split
  · exact n.retains_update d fun _ _ => rfl
  · exact .of_eq rfl

lemma retains_recv (n : Network) (d : SocketId) (k : Nat) : Retains c n (n.recv d k).2 := by
  rw [recv]
  split
  · exact n.retains_update d fun _ _ => rfl
  · exact .refl c n

/-- Only a new connection, a poll and the peer itself change what lies with the peer of a connection. -/
lemma retains_perform {a : Action} (hpoll : a ≠ .poll) (htake : a ≠ .peerTake c)
    (hconnect : (∃ p, a = .connect p) → c ≠ ⟨n.nextId⟩) : Retains c n (n.perform a).2 := by
  cases a with
  | advance d => exact .of_eq (n.get?_advance d c)
  | connect p =>
    rcases n.connect_eq p with h | ⟨l, h⟩ <;> simp only [perform, h]
    · exact .refl c n
    · refine .of_eq ((Table.get?_set _ _ _ _).trans (if_neg ?_))
      exact (hconnect ⟨p, rfl⟩).symm
  | peerSend d bs =>
    exact .of_ite (f := fun q => { q with inbound := q.inbound ++ bs }) (fun _ _ => rfl)
      (n.get?_peerSend d c bs)
  | peerClose d | abort d => exact .of_get? fun _ => Sheds.get? ⟨[d], rfl⟩
  | peerTake d =>
    simp only [perform, peerTake]
    split
    · exact n.retains_update d fun hd => absurd (congrArg Action.peerTake hd) htake
    · exact .refl c n
  | stall d on => exact n.retains_update d fun _ _ => rfl
  | timer d | socket d | listening p | openCount | now | closeListener d => exact .of_eq rfl
  | bind p => exact .of_eq (n.get?_bind p c)
  | send d bs => exact n.retains_update d fun _ _ => rfl
  | schedule d t => exact n.retains_schedule d t
  | recv d k => exact n.retains_recv d k
  | poll => exact absurd rfl hpoll

end Network

namespace Site

variable {κ : Type} {c : SocketId}

lemma retains_call (s : Site κ) (call : Call Handle κ) :
    Network.Retains c s.network (call.perform s).2.network := by
  cases call with
  | read h k =>
    simp only [Call.perform, read]
    split
    · exact .refl c _
    · split
      · exact .refl c _
      · next d _ =>
        have hrecv : Network.Retains c s.network (s.network.recv d k).2 := s.network.retains_recv d k
        split
        · exact .refl c _
        · dsimp only
          split
          · exact hrecv.trans (Network.retains_schedule _ d _)
          · exact hrecv
  | write h bytes =>
    simp only [Call.perform, write]
    split
    · exact .refl c _
    · split
      · exact .refl c _
      · split
        · exact .refl c _
        · exact s.network.retains_update _ fun _ _ => rfl
  | openListener callback | closeListener | port | accept | close h | closeOutput h
  | arm h want callback | state h | stats =>
    refine .of_get? fun _ => get?_of_call fun g r hmoves => ?_
    cases hmoves

lemma retains_release (s : Site κ) : Network.Retains c s.network s.release.network :=
  (s.retains_call .closeListener).trans (.of_get? fun _ => s.sheds_release.get?)

end Site

namespace Moment

variable {κ : Type} {w w' : Moment κ} {mv : Move κ} {o : Outcome κ} {c : SocketId} {x : Stride κ}

/-- What a stride makes of what lies with the peer of a connection. -/
inductive Handover (x : Stride κ) (c : SocketId) : Prop where
  | opened (hnew : c.num = x.before.network.nextId) (hb : x.before.network.isOpen c = false)
      (hd : x.after.network.delivered c = []) (hh : x.handed c = [])
      (hf : x.fetched c = [])
  | retained (hr : x.before.network.Retains c x.after.network) (hh : x.handed c = [])
      (hf : x.fetched c = [])
  | polled (ho : x.after.network.isOpen c = x.before.network.isOpen c)
      (hd : x.after.network.delivered c = x.before.network.delivered c ++ x.handed c)
      (hf : x.fetched c = [])
  | taken (ho : x.after.network.isOpen c = x.before.network.isOpen c)
      (hd : x.after.network.delivered c = []) (hh : x.handed c = [])
      (hf : x.fetched c = x.before.network.delivered c)

/-- A poll moves the first of what is queued to the peer, behind what is there. -/
lemma handed_of_poll (hn : x.after.network = x.before.network.poll.2)
    (hh : x.handed c = (x.before.network.outbound c).take
      ((x.before.network.outbound c).length - (x.after.network.outbound c).length)) :
    x.after.network.delivered c = x.before.network.delivered c ++ x.handed c ∧
      x.handed c ++ x.after.network.outbound c = x.before.network.outbound c := by
  obtain ⟨bs, hout, hdel⟩ := x.before.network.poll_hands c
  rw [← hn] at hout hdel
  have hbs : x.handed c = bs := by
    rw [hh, hout, List.length_append, Nat.add_sub_cancel, List.take_left]
  rw [hbs]
  exact ⟨hdel, hout.symm⟩

lemma handover_of_poll (hn : x.after.network = x.before.network.poll.2)
    (hh : x.handed c = (x.before.network.outbound c).take
      ((x.before.network.outbound c).length - (x.after.network.outbound c).length))
    (hf : x.fetched c = []) : Handover x c :=
  .polled (by rw [hn, Network.isOpen_poll]) (handed_of_poll hn hh).1 hf

lemma handed_eq_nil (hpoll : mv ≠ .network .poll) (hbegin : ∀ i, mv ≠ .begin i) :
    Stride.handed ⟨w, mv, o, w'⟩ c = [] := by
  rw [Stride.handed.eq_def]
  split
  · next i hmv => exact absurd hmv (hbegin i)
  · next hmv => exact absurd hmv hpoll
  · rfl

lemma fetched_eq_nil (htake : mv ≠ .network (.peerTake c)) :
    Stride.fetched ⟨w, mv, o, w'⟩ c = [] := by
  rw [Stride.fetched.eq_def]
  split
  · next d bs hmv _ =>
    refine if_neg fun hd => htake ?_
    subst hd
    exact hmv
  · rfl

lemma Step.handover (hs : Step w mv o w') (hnew : w.network.isOpen ⟨w.network.nextId⟩ = false)
    (c : SocketId) : Handover ⟨w, mv, o, w'⟩ c := by
  have hsite : ∀ {i : Nat} {s s' : Site κ}, w.site? i = some s →
      s.network.Retains c s'.network → w.network.Retains c s'.network := by
    intro i s s' hs hr
    rw [((w.site?_eq_some_iff i s).mp hs).2.1]
    exact hr
  cases hs with
  | network a hact =>
    by_cases hpoll : a = .poll
    · subst hpoll
      exact handover_of_poll rfl rfl rfl
    have hh : Stride.handed ⟨w, .network a, .network (w.network.perform a).1,
        { w with network := (w.network.perform a).2 }⟩ c = [] :=
      handed_eq_nil (fun he => hpoll (Move.network.inj he)) nofun
    by_cases htake : a = .peerTake c
    · subst htake
      refine .taken ((w.network.sameTraffic_peerTake c).opened c) (w.network.delivered_peerTake c) hh ?_
      exact (if_pos rfl).trans (w.network.peerTake_fst c)
    have hf : Stride.fetched ⟨w, .network a, .network (w.network.perform a).1,
        { w with network := (w.network.perform a).2 }⟩ c = [] :=
      fetched_eq_nil fun he => htake (Move.network.inj he)
    by_cases hconnect : (∃ p, a = .connect p) ∧ c = ⟨w.network.nextId⟩
    · obtain ⟨⟨p, rfl⟩, rfl⟩ := hconnect
      exact .opened rfl hnew (Network.delivered_connect hnew p) hh hf
    · exact .retained (Network.retains_perform hpoll htake fun hp hc => hconnect ⟨hp, hc⟩) hh hf
  | call i call s hact hs => exact .retained (hsite hs (s.retains_call call)) rfl rfl
  | note n hact | create p hact => exact .retained (.refl c _) rfl rfl
  | release i s hact hi hs => exact .retained (hsite hs s.retains_release) rfl rfl
  | begin i s hact hi hs =>
    obtain ⟨-, hn, -⟩ := (w.site?_eq_some_iff i s).mp hs
    exact handover_of_poll (by rw [hn]; rfl) rfl rfl
  | proceed i a fs s hf hs =>
    exact .retained (.of_get? fun _ => (sheds_proceed hs a fs).get?) rfl rfl
  | leave i a n fs s hf hs =>
    exact .retained (hsite hs (.of_get? fun _ => s.sheds_leave.get?)) rfl rfl

lemma lost_eq_nil (h : x.before.network.isOpen c = true → x.after.network.isOpen c = true) :
    x.lost c = [] := by
  refine if_neg fun hends => ?_
  have hopen := h hends.1
  rw [hends.2] at hopen
  cases hopen

lemma lost_of_closed (h : x.before.network.isOpen c = false) : x.lost c = [] :=
  lost_eq_nil fun hopen => by
    rw [h] at hopen
    cases hopen

lemma handed_of_closed (h : x.before.network.isOpen c = false) : x.handed c = [] := by
  rw [Stride.handed.eq_def, Network.outbound_of_closed h]
  split <;> first | exact List.take_nil | rfl

lemma Handover.isOpen (h : Handover x c) (ho : x.after.network.isOpen c = true) :
    x.before.network.isOpen c = true ∨ c.num = x.before.network.nextId := by
  cases h with
  | opened hnew hb hd hh hf => exact .inr hnew
  | retained hr hh hf => exact .inl (hr ho).1
  | polled hsame hd hf | taken hsame hd hh hf => exact .inl (hsame.symm.trans ho)

lemma Handover.balance (h : Handover x c) : x.before.network.delivered c ++ x.handed c =
    x.fetched c ++ x.after.network.delivered c ++ x.lost c := by
  cases h with
  | opened hnew hb hd hh hf =>
    rw [Network.delivered_of_closed hb, hh, hf, hd, lost_of_closed hb]
    rfl
  | retained hr hh hf =>
    rw [hh, hf, List.append_nil, List.nil_append]
    cases ho' : x.after.network.isOpen c with
    | true => rw [(hr ho').2, lost_eq_nil fun _ => ho', List.append_nil]
    | false =>
      rw [Network.delivered_of_closed ho', List.nil_append]
      cases ho : x.before.network.isOpen c with
      | true => exact (if_pos ⟨ho, ho'⟩).symm
      | false => rw [lost_of_closed ho, Network.delivered_of_closed ho]
  | polled hsame hd hf =>
    rw [hd, hf, lost_eq_nil fun ho => hsame.trans ho, List.append_nil, List.nil_append]
  | taken hsame hd hh hf =>
    rw [hd, hh, hf, lost_eq_nil fun ho => hsame.trans ho, List.append_nil, List.append_nil]

/-! ### Runs -/

/-- What was handed over so far was taken, lies with the peer, or was lost with the connection. -/
structure Accounted (c : SocketId) (past : List (Stride κ)) (w : Moment κ) : Prop where
  balance : past.flatMap (·.handed c) = past.flatMap (·.fetched c) ++ w.network.delivered c ++
    past.flatMap (·.lost c)
  whole : w.network.isOpen c = true ∨ w.network.nextId ≤ c.num → past.flatMap (·.lost c) = []

lemma flatMap_concat {α : Type} (past : List (Stride κ)) (x : Stride κ) (f : Stride κ → List α) :
    (past ++ [x]).flatMap f = past.flatMap f ++ f x := by
  rw [List.flatMap_append, List.flatMap_singleton]

lemma Accounted.step {past : List (Stride κ)} (h : Accounted c past x.before) (hx : Handover x c)
    (hle : x.before.network.nextId ≤ x.after.network.nextId)
    (hnew : x.before.network.nextId ≤ c.num → x.before.network.isOpen c = false) :
    Accounted c (past ++ [x]) x.after := by
  have hbalance := hx.balance
  refine ⟨?_, fun hw => ?_⟩
  · rw [flatMap_concat, flatMap_concat, flatMap_concat, h.balance]
    cases ho : x.before.network.isOpen c with
    | true =>
      rw [h.whole (.inl ho), List.append_nil, List.nil_append, List.append_assoc, hbalance]
      simp only [List.append_assoc]
    | false =>
      -- Nothing happens to a connection that is not open.
      rw [Network.delivered_of_closed ho, handed_of_closed ho, lost_of_closed ho] at hbalance ⊢
      obtain ⟨hf, hd⟩ := List.append_eq_nil_iff.mp (List.append_nil _ ▸ hbalance.symm)
      rw [hf, hd]
      simp only [List.append_nil]
  · rw [flatMap_concat]
    rcases hw with ho | hw
    · have hbefore : x.before.network.isOpen c = true ∨ x.before.network.nextId ≤ c.num :=
        (hx.isOpen ho).imp id fun he => Nat.le_of_eq he.symm
      rw [h.whole hbefore, lost_eq_nil fun _ => ho]
      rfl
    · have hbefore := Nat.le_trans hle hw
      rw [h.whole (.inr hbefore), lost_of_closed (hnew hbefore)]
      rfl

variable {ports : PortSource} {mvs : List (Move κ)} {es : History κ}

lemma handover_run (hr : (initial ports).run mvs = some (es, w)) (hs : Step w mv o w')
    (c : SocketId) : Handover ⟨w, mv, o, w'⟩ c := hs.handover (isOpen_unborn hr (Nat.le_refl _)) c

lemma accounted_run (hr : (initial ports).run mvs = some (es, w)) (c : SocketId) :
    Accounted c ((initial ports).trace mvs) w := by
  refine trace_invariant (P := Accounted c) ⟨rfl, fun _ => rfl⟩ ?_ hr
  rintro past w mv o w' hreach hpast hs
  obtain ⟨mvs, es, hr⟩ := hreach
  exact Accounted.step (x := ⟨w, mv, o, w'⟩) hpast (handover_run hr hs c)
    (hs.stage (orderly_run hr)).nextId_le fun hc => isOpen_unborn hr hc

/-- Nothing comes of a connection that has ended. -/
lemma ended_run (hreach : (initial ports).Reaches w) (ho : w.network.isOpen c = false)
    (hc : c.num < w.network.nextId) (hr : w.run mvs = some (es, w')) :
    w'.network.isOpen c = false ∧ (w.trace mvs).flatMap (·.handed c) = [] ∧
      (w.trace mvs).flatMap (·.lost c) = [] := by
  have hall := trace_invariant (P := fun past w' => c.num < w'.network.nextId ∧
    w'.network.isOpen c = false ∧ past.flatMap (·.handed c) = [] ∧ past.flatMap (·.lost c) = [])
    ⟨hc, ho, rfl, rfl⟩ (fun past w mv o w' hfrom hpast hs => ?_) hr
  · exact hall.2
  · obtain ⟨hlt, hclosed, hhanded, hlost⟩ := hpast
    obtain ⟨mvs, es, hr⟩ := hreach.trans hfrom
    have hx := handover_run hr hs c
    refine ⟨Nat.lt_of_lt_of_le hlt (hs.stage (orderly_run hr)).nextId_le, ?_, ?_, ?_⟩
    · refine Bool.eq_false_iff.mpr fun hopen => ?_
      rcases hx.isOpen hopen with hbefore | hnum
      · rw [hclosed] at hbefore
        cases hbefore
      · exact Nat.ne_of_lt hlt hnum
    · rw [flatMap_concat, hhanded, handed_of_closed hclosed]
      rfl
    · rw [flatMap_concat, hlost, lost_of_closed hclosed]
      rfl

lemma Step.outbound_of_poll (hs : Step w mv o w') (hmv : mv = .network .poll ∨ ∃ i, mv = .begin i)
    (c : SocketId) : Stride.handed ⟨w, mv, o, w'⟩ c ++ w'.network.outbound c = w.network.outbound c := by
  rcases hmv with rfl | ⟨i, rfl⟩
  · cases hs with
    | network a hact => exact (handed_of_poll rfl rfl).2
  · cases hs with
    | begin i s hact hi hsite =>
      obtain ⟨-, hn, -⟩ := (w.site?_eq_some_iff i s).mp hsite
      exact (handed_of_poll (x := ⟨w, .begin i, .done, w.begin i s⟩) (by rw [hn]; rfl) rfl).2

/-- All that polls handed over to the peer of a connection was taken by the peer in this order, or will be
when it next asks, but for what had reached it and was not taken when the connection ended. That is lost with
the connection, and with it what was still queued. -/
theorem handover_balanced (hr : (initial ports).run mvs = some (es, w)) (c : SocketId) :
    let xs := (initial ports).trace mvs
    xs.flatMap (·.handed c) = xs.flatMap (·.fetched c) ++ (w.network.peerTake c).1 ++
      xs.flatMap (·.lost c) ∧
    (w.network.isOpen c = true → xs.flatMap (·.lost c) = []) ∧
    (∀ first x rest, xs = first ++ x :: rest → x.Ends c →
      xs.flatMap (·.lost c) = x.before.network.delivered c ∧
        rest.flatMap (·.handed c) = [] ∧ (w.network.peerTake c).1 = []) ∧
    ∀ x ∈ xs, x.move = .network .poll ∨ (∃ i, x.move = .begin i) →
      x.handed c ++ x.after.network.outbound c = x.before.network.outbound c := by
  intro xs
  have hall := accounted_run hr c
  refine ⟨?_, fun ho => hall.whole (.inl ho), fun first x rest hsplit hends => ?_, fun x hx hmv => ?_⟩
  · rw [Network.peerTake_fst]
    exact hall.balance
  · obtain ⟨mvs₁, mvs₂, es₁, es₂, rfl, hr₁, rfl, hs, hr₂, rfl⟩ := trace_split hr hsplit
    obtain ⟨ho, ho'⟩ := hends
    have hnum : c.num < x.before.network.nextId := by
      refine Nat.lt_of_not_le fun hle => ?_
      rw [isOpen_unborn hr₁ hle] at ho
      cases ho
    have hlt := Nat.lt_of_lt_of_le hnum ((step_cases hs).stage (orderly_run hr₁)).nextId_le
    have hreach : (initial ports).Reaches x.after := (Reaches.of_run hr₁).trans (.step _ _ hs)
    obtain ⟨hclosed, hhanded, hlost⟩ := ended_run hreach ho' hlt hr₂
    refine ⟨?_, hhanded, ?_⟩
    · rw [hsplit, List.flatMap_append, List.flatMap_cons, hlost,
        (accounted_run hr₁ c).whole (.inl ho), List.append_nil, List.nil_append]
      exact if_pos ⟨ho, ho'⟩
    · rw [Network.peerTake_fst, Network.delivered_of_closed hclosed]
  · obtain ⟨first, rest, hsplit⟩ := List.append_of_mem hx
    obtain ⟨-, -, -, -, -, -, -, hs, -, -⟩ := trace_split hr hsplit
    exact (step_cases hs).outbound_of_poll hmv c

/-- Seven reaches the peer, which does not ask before the connection is closed. -/
theorem handover_incomplete : ¬ ∀ (mvs : List (Move Unit)) (es : History Unit) (w : Moment Unit)
    (c : SocketId), (initial .standard).run mvs = some (es, w) →
      ((initial .standard).trace mvs).flatMap (·.handed c) =
        ((initial .standard).trace mvs).flatMap (·.fetched c) ++ (w.network.peerTake c).1 := by
  intro h
  have hlost := h [.network (.bind 9000), .network (.connect 9000), .network (.send ⟨2⟩ [7]),
    .network .poll, .network (.abort ⟨2⟩)] _ _ ⟨2⟩ rfl
  have hseven : [(7 : UInt8)] = [] := hlost
  cases hseven

/-- The peer takes the first two bytes that were written to it. Two more reach it, and another one is queued,
when the stream is closed. -/
def hangUp : List (Move Unit) :=
  [.create ⟨some 9000, 1, 1, 0, 0, 0, 64, 0⟩, .call 0 (.openListener ()), .network (.connect 9000),
    .begin 0, .proceed, .proceed, .proceed, .proceed, .call 0 .accept, .call 0 (.write ⟨0, 1⟩ [1, 2]),
    .leave, .proceed, .network .poll, .network (.peerTake ⟨2⟩), .call 0 (.write ⟨0, 1⟩ [3, 4]),
    .network .poll, .call 0 (.write ⟨0, 1⟩ [5]), .call 0 (.close ⟨0, 1⟩), .network .poll,
    .network (.peerTake ⟨2⟩)]

theorem handover_balanced_hangUp : ∃ es w, (initial .standard).run hangUp = some (es, w) ∧
    ((initial .standard).trace hangUp).flatMap (·.handed ⟨2⟩) = [1, 2, 3, 4] ∧
    ((initial .standard).trace hangUp).flatMap (·.fetched ⟨2⟩) = [1, 2] ∧
    ((initial .standard).trace hangUp).flatMap (·.lost ⟨2⟩) = [3, 4] ∧
    (w.network.peerTake ⟨2⟩).1 = [] := by
  have hrun : ∃ es w first x rest, (initial .standard).run hangUp = some (es, w) ∧
      (initial .standard).trace hangUp = first ++ x :: rest ∧ x.Ends ⟨2⟩ ∧
      x.before.network.delivered ⟨2⟩ = [3, 4] ∧
      ((initial .standard).trace hangUp).flatMap (·.fetched ⟨2⟩) = [1, 2] :=
    ⟨_, _, ((initial .standard).trace hangUp).take 17, _, _, rfl, rfl, ⟨rfl, rfl⟩, rfl, rfl⟩
  obtain ⟨es, w, first, x, rest, hr, hsplit, hends, hdelivered, hfetched⟩ := hrun
  obtain ⟨hbalance, -, hlost, -⟩ := handover_balanced hr ⟨2⟩
  obtain ⟨hlost, -, hgone⟩ := hlost first x rest hsplit hends
  rw [hdelivered] at hlost
  rw [hfetched, hgone, hlost] at hbalance
  exact ⟨es, w, hr, hbalance, hfetched, hlost, hgone⟩

end Moment

end BoundedStreams
