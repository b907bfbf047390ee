import BoundedStreams.Proofs.Service

/-! What enters the backlog of a manager and what leaves it. A connection is admitted once and leaves
in one of three ways; claims and offers go in the order of the admissions. -/

namespace BoundedStreams

namespace Backlog

/-- What was offered and not claimed yet. -/
def shown (b : Backlog) : List SocketId := sockets (b.filter (·.offered))

def unshown (b : Backlog) : List SocketId := sockets (b.filter (!·.offered))

lemma sockets_append (b c : Backlog) : sockets (b ++ c) = b.sockets ++ c.sockets := List.map_append

lemma shown_subset (b : Backlog) : b.shown ⊆ b.sockets :=
  (List.filter_sublist.map Pending.socket).subset

/-- Everything before the entry that is offered was offered already. -/
lemma offer_split {b b' : Backlog} {p : Pending} (h : b.offer = some (p, b')) :
    ∃ (first : Backlog) (q : Pending) (rest : Backlog), b = first ++ q :: rest ∧
      b' = first ++ p :: rest ∧ (∀ r ∈ first, r.offered = true) ∧ q.offered = false ∧
      p = { q with offered := true } := by
  induction b generalizing b' with
  | nil => cases h
  | cons q b ih =>
    rw [offer] at h
    split at h
    · next hq =>
      obtain ⟨⟨r, c⟩, hc, he⟩ := Option.map_eq_some_iff.mp h
      cases he
      obtain ⟨first, s, rest, rfl, rfl, hfirst, hs, hp⟩ := ih hc
      refine ⟨q :: first, s, rest, rfl, rfl, fun t ht => ?_, hs, hp⟩
      rcases List.mem_cons.mp ht with rfl | ht
      · exact hq
      · exact hfirst t ht
    · next hq =>
      cases h
      exact ⟨[], q, b, rfl, rfl, fun r hr => absurd hr List.not_mem_nil, by simpa using hq, rfl⟩

lemma filter_prefix {b : Backlog}
    (h : b.Pairwise fun p q => q.offered = true → p.offered = true) : b.filter (·.offered) <+: b := by
  induction b with
  | nil => exact List.prefix_rfl
  | cons p b ih =>
    obtain ⟨hp, hb⟩ := List.pairwise_cons.mp h
    cases ho : p.offered with
    | true =>
      rw [List.filter_cons_of_pos ho]
      exact (List.prefix_cons_inj p).mpr (ih hb)
    | false =>
      have hnone : (p :: b).filter (·.offered) = [] := by
        rw [List.filter_eq_nil_iff]
        intro q hq hqo
        rcases List.mem_cons.mp hq with rfl | hq
        · simp [ho] at hqo
        · simp [hp q hq hqo] at ho
      exact hnone ▸ List.nil_prefix

end Backlog

structure Turnover where
  admitted : List SocketId := []
  claimed : List SocketId := []
  /-- What ended while it was pending. -/
  dropped : List SocketId := []
  /-- What was pending when the listener was closed. -/
  shed : List SocketId := []
  offered : List SocketId := []

namespace Turnover

def add (t u : Turnover) : Turnover where
  admitted := t.admitted ++ u.admitted
  claimed := t.claimed ++ u.claimed
  dropped := t.dropped ++ u.dropped
  shed := t.shed ++ u.shed
  offered := t.offered ++ u.offered

def total (ts : List Turnover) : Turnover where
  admitted := ts.flatMap (·.admitted)
  claimed := ts.flatMap (·.claimed)
  dropped := ts.flatMap (·.dropped)
  shed := ts.flatMap (·.shed)
  offered := ts.flatMap (·.offered)

lemma total_concat (ts : List Turnover) (u : Turnover) : total (ts ++ [u]) = (total ts).add u := by
  simp [total, add]

/-- How a backlog changes in one step, and what enters and leaves it thereby. -/
inductive Flow : Backlog → Turnover → Backlog → Prop where
  | still (b : Backlog) : Flow b {} b
  | push (b : Backlog) (c : SocketId) (now : Nat) : Flow b { admitted := [c] } (b.push c now)
  | claim (p : Pending) (b : Backlog) : Flow (p :: b) { claimed := [p.socket] } b
  | drop (b : Backlog) (c : SocketId) (hc : c ∈ b.sockets) :
      Flow b { dropped := [c] } (b.withdraw c)
  | shed (b : Backlog) : Flow b { shed := b.sockets } []
  | offer (b b' : Backlog) (p : Pending) (h : b.offer = some (p, b')) :
      Flow b { offered := [p.socket] } b'

/-- The turnover since the backlog was empty accounts for what is in it. -/
structure Accounts (t : Turnover) (b : Backlog) : Prop where
  once : t.admitted.Nodup
  all : t.admitted.Perm (b.sockets ++ t.claimed ++ t.dropped ++ t.shed)
  claims : (t.claimed ++ b.sockets).Sublist t.admitted
  front : b.Pairwise fun p q => q.offered = true → p.offered = true
  offers : (t.offered ++ b.unshown).Sublist t.admitted

lemma accounts_nil : Accounts {} [] :=
  ⟨List.nodup_nil, List.Perm.refl _, List.Sublist.refl _, List.Pairwise.nil, List.Sublist.refl _⟩

variable {t u : Turnover} {b b' : Backlog}

lemma Accounts.once_add (h : Accounts t b) (hf : Flow b u b')
    (hnew : ∀ c ∈ u.admitted, c ∉ t.admitted) : (t.add u).admitted.Nodup := by
  cases hf with
  | push b c now =>
    refine h.once.append (List.nodup_singleton c) fun d hd hd' => ?_
    exact hnew d hd' hd
  | still | claim | drop | shed | offer =>
    rw [add, List.append_nil]
    exact h.once

lemma Accounts.all_add (h : Accounts t b) (hf : Flow b u b') : (t.add u).admitted.Perm
    (b'.sockets ++ (t.add u).claimed ++ (t.add u).dropped ++ (t.add u).shed) := by
  -- Counted for one connection at a time, since a drop takes its one from the middle of the backlog.
  rw [List.perm_iff_count]
  intro d
  have hd := h.all.count_eq d
  simp only [add, List.count_append] at hd ⊢
  cases hf with
  | still => simpa using hd
  | push b c now =>
    simp only [Backlog.sockets_push, List.count_append, List.count_nil]
    omega
  | claim p =>
    have hp : Backlog.sockets (p :: b') = [p.socket] ++ b'.sockets := rfl
    simp only [hp, List.count_append, List.count_nil] at hd ⊢
    omega
  | drop b c hc =>
    have hp := (List.perm_cons_erase hc).count_eq d
    rw [← List.singleton_append, List.count_append] at hp
    simp only [Backlog.sockets_withdraw, List.count_nil]
    omega
  | shed b =>
    have hp : Backlog.sockets [] = [] := rfl
    simp only [hp, List.count_nil]
    omega
  | offer b b' p ho =>
    simp only [Backlog.sockets_offer ho, List.count_nil]
    omega

lemma Accounts.claims_add (h : Accounts t b) (hf : Flow b u b') :
    ((t.add u).claimed ++ b'.sockets).Sublist (t.add u).admitted := by
  have hc := h.claims
  cases hf with
  | still => simpa [add] using hc
  | push b c now =>
    simp only [add, Backlog.sockets_push, List.append_nil, ← List.append_assoc]
    exact hc.append (List.Sublist.refl [c])
  | claim p =>
    simp only [add, List.append_nil, List.append_assoc]
    exact hc
  | drop b c hmem =>
    simp only [add, Backlog.sockets_withdraw, List.append_nil]
    exact ((List.Sublist.refl _).append List.erase_sublist).trans hc
  | shed b =>
    simp only [add, List.append_nil]
    exact ((List.Sublist.refl _).append (List.nil_sublist b.sockets)).trans hc
  | offer b b' p ho =>
    simp only [add, Backlog.sockets_offer ho, List.append_nil]
    exact hc

lemma Accounts.front_add (h : Accounts t b) (hf : Flow b u b') :
    b'.Pairwise fun p q => q.offered = true → p.offered = true := by
  have hb := h.front
  cases hf with
  | still => exact hb
  | push b c now =>
    refine List.pairwise_append.mpr ⟨hb, List.pairwise_singleton _ _, fun p hp q hq ho => ?_⟩
    rw [List.mem_singleton.mp hq] at ho
    cases ho
  | claim p => exact (List.pairwise_cons.mp hb).2
  | drop b c hc => exact hb.sublist List.eraseP_sublist
  | shed b => exact List.Pairwise.nil
  | offer b b' p ho =>
    obtain ⟨first, q, rest, rfl, rfl, hfirst, -, rfl⟩ := Backlog.offer_split ho
    obtain ⟨h₁, h₂, -⟩ := List.pairwise_append.mp hb
    refine List.pairwise_append.mpr ⟨h₁, ?_, fun r hr _ _ _ => hfirst r hr⟩
    exact List.pairwise_cons.mpr ⟨fun _ _ _ => rfl, (List.pairwise_cons.mp h₂).2⟩

lemma Accounts.offers_add (h : Accounts t b) (hf : Flow b u b') :
    ((t.add u).offered ++ b'.unshown).Sublist (t.add u).admitted := by
  have ho := h.offers
  have hless : ∀ c : Backlog, c.Sublist b → (t.offered ++ c.unshown).Sublist t.admitted := by
    intro c hc
    exact ((List.Sublist.refl _).append ((hc.filter _).map Pending.socket)).trans ho
  cases hf with
  | still => simpa [add] using ho
  | push b c now =>
    have hpush : (b.push c now).unshown = b.unshown ++ [c] := by
      simp [Backlog.unshown, Backlog.push, Backlog.sockets]
    simp only [add, hpush, List.append_nil, ← List.append_assoc]
    exact ho.append (List.Sublist.refl [c])
  | claim p =>
    simp only [add, List.append_nil]
    exact hless b' (List.sublist_cons_self p b')
  | drop b c hc =>
    simp only [add, List.append_nil]
    exact hless _ List.eraseP_sublist
  | shed b =>
    simp only [add, List.append_nil]
    exact hless [] (List.nil_sublist b)
  | offer b b' p hb =>
    obtain ⟨first, q, rest, rfl, rfl, hfirst, hq, rfl⟩ := Backlog.offer_split hb
    have hnone : first.filter (!·.offered) = [] :=
      List.filter_eq_nil_iff.mpr fun r hr => by simp [hfirst r hr]
    simp only [add, List.append_nil, List.append_assoc]
    simpa [Backlog.unshown, Backlog.sockets, List.filter_append, hnone, hq] using ho

lemma Accounts.add (h : Accounts t b) (hf : Flow b u b') (hnew : ∀ c ∈ u.admitted, c ∉ t.admitted) :
    Accounts (t.add u) b' :=
  ⟨h.once_add hf hnew, h.all_add hf, h.claims_add hf, h.front_add hf, h.offers_add hf⟩

lemma Flow.length_offered (hf : Flow b u b') : u.offered.length ≤ 1 := by
  cases hf with
  | offer => exact Nat.le_refl 1
  | _ => exact Nat.zero_le 1

lemma filter_not_mem_eq_nil {l l' : List SocketId} (h : l ⊆ l') : l.filter (· ∉ l') = [] := by
  rw [List.filter_eq_nil_iff]
  intro c hc
  simp [h hc]

lemma Flow.admitted_eq (hf : Flow b u b') (hb : b'.sockets.Nodup) :
    b'.sockets.filter (· ∉ b.sockets) = u.admitted := by
  cases hf with
  | still => exact filter_not_mem_eq_nil (List.Subset.refl _)
  | push b c now =>
    rw [Backlog.sockets_push, List.nodup_append] at hb
    have hc : c ∉ b.sockets := fun hmem => hb.2.2 c hmem c List.mem_cons_self rfl
    rw [Backlog.sockets_push, List.filter_append, filter_not_mem_eq_nil (List.Subset.refl _)]
    simp [hc]
  | claim p => exact filter_not_mem_eq_nil (List.subset_cons_self p.socket b'.sockets)
  | drop b c hc =>
    rw [Backlog.sockets_withdraw]
    exact filter_not_mem_eq_nil List.erase_subset
  | shed b => rfl
  | offer b b' p ho =>
    rw [Backlog.sockets_offer ho]
    exact filter_not_mem_eq_nil (List.Subset.refl _)

lemma Flow.offered_eq (hf : Flow b u b') (hb : b'.sockets.Nodup) :
    b'.shown.filter (· ∉ b.shown) = u.offered := by
  have hless : ∀ c : Backlog, c.Sublist b → c.shown.filter (· ∉ b.shown) = [] :=
    fun c hc => filter_not_mem_eq_nil ((hc.filter _).map Pending.socket).subset
  cases hf with
  | still => exact hless b (List.Sublist.refl b)
  | push b c now =>
    have hpush : (b.push c now).shown = b.shown := by
      simp [Backlog.shown, Backlog.push]
    rw [hpush]
    exact hless b (List.Sublist.refl b)
  | claim p => exact hless b' (List.sublist_cons_self p b')
  | drop b c hc => exact hless _ List.eraseP_sublist
  | shed b => rfl
  | offer b b' p ho =>
    obtain ⟨first, q, rest, rfl, rfl, -, hq, rfl⟩ := Backlog.offer_split ho
    have hshown : Backlog.shown (first ++ { q with offered := true } :: rest) =
        first.shown ++ q.socket :: rest.shown := by
      simp [Backlog.shown, Backlog.sockets]
    have hshown' : Backlog.shown (first ++ q :: rest) = first.shown ++ rest.shown := by
      simp [Backlog.shown, Backlog.sockets, hq]
    have hnew : q.socket ∉ first.shown ++ rest.shown := by
      rw [Backlog.sockets_append, List.nodup_append] at hb
      obtain ⟨-, hrest, hne⟩ := hb
      rw [List.mem_append]
      rintro (hmem | hmem)
      · exact hne _ (first.shown_subset hmem) _ List.mem_cons_self rfl
      · exact (List.nodup_cons.mp hrest).1 (rest.shown_subset hmem)
    rw [hshown, hshown', List.filter_append, List.filter_cons_of_pos (by simpa using hnew),
      filter_not_mem_eq_nil (List.subset_append_left _ _),
      filter_not_mem_eq_nil (List.subset_append_right _ _)]
    rfl

end Turnover

namespace Moment

variable {κ : Type}

def backlog (w : Moment κ) (i : Nat) : Backlog := (w.manager? i).elim [] (·.backlog)

def socket? (w : Moment κ) (i : Nat) (h : Handle) : Option SocketId :=
  (w.manager? i).bind fun m => (m.streams.get? h).bind (·.socket)

/-- The socket of the open listener of manager `i`. -/
def listening? (w : Moment κ) (i : Nat) : Option SocketId :=
  (w.manager? i).bind fun m => m.listener.map (·.socket)

/-- The event that manager `i` is about to handle. -/
def event? (w : Moment κ) (i : Nat) : Option SocketEvent :=
  match w.job? i with
  | some (.events (e :: _)) => some e
  | _ => none

/-- Whether a move closes the listener of manager `i`. -/
def unlistens (i : Nat) : Move κ → Bool
  | .call j .closeListener => j = i
  | .release j => j = i
  | _ => false

lemma unlistens_eq_true_iff {i : Nat} {mv : Move κ} :
    unlistens i mv = true ↔ mv = .call i .closeListener ∨ mv = .release i := by
  rw [unlistens.eq_def]
  split <;> simp_all

lemma backlog_eq {w : Moment κ} {i : Nat} {m : Manager κ} (hm : w.manager? i = some m) :
    w.backlog i = m.backlog := by
  rw [backlog, hm, Option.elim_some]

lemma backlog_eq_nil {w : Moment κ} {i : Nat} (hm : w.manager? i = none) : w.backlog i = [] := by
  rw [backlog, hm, Option.elim_none]

lemma socket?_eq {w : Moment κ} {i : Nat} {m : Manager κ} (hm : w.manager? i = some m) {h : Handle}
    {c : SocketId} {t : Nat} (hc : m.front.attached h = some (c, t)) : w.socket? i h = some c := by
  obtain ⟨r, hr, hsocket, -⟩ := (m.streams.attached_eq_some_iff h c t).mp hc
  rw [socket?, hm, Option.bind_some, hr, Option.bind_some, hsocket]

lemma event?_eq_some_iff {w : Moment κ} {i : Nat} {e : SocketEvent} :
    w.event? i = some e ↔ ∃ es, w.job? i = some (.events (e :: es)) := by
  rw [event?]
  split
  · next d es hj => simp [hj]
  · next hj =>
    simp only [reduceCtorEq, false_iff, not_exists]
    exact fun es he => hj e es he

end Moment

namespace Stride

variable {κ : Type}

def admitted (x : Stride κ) (i : Nat) : List SocketId :=
  (x.after.backlog i).sockets.filter (· ∉ (x.before.backlog i).sockets)

def claimed (x : Stride κ) (i : Nat) : List SocketId :=
  ((Moment.claimed? i (x.move, x.outcome)).bind (x.after.socket? i)).toList

def dropped (x : Stride κ) (i : Nat) : List SocketId :=
  ((x.before.event? i).toList.filter fun e =>
    e.kind = .closed ∧ e.socket ∈ (x.before.backlog i).sockets).map (·.socket)

def shed (x : Stride κ) (i : Nat) : List SocketId :=
  if Moment.unlistens i x.move then (x.before.backlog i).sockets else []

def offered (x : Stride κ) (i : Nat) : List SocketId :=
  (x.after.backlog i).shown.filter (· ∉ (x.before.backlog i).shown)

def turnover (x : Stride κ) (i : Nat) : Turnover :=
  ⟨x.admitted i, x.claimed i, x.dropped i, x.shed i, x.offered i⟩

/-- The connections that came in for the listener that was open. -/
def arrived (x : Stride κ) (i : Nat) : List SocketId :=
  ((x.before.event? i).toList.filter fun e =>
    (x.before.listening? i).any fun l => e.kind = .accepted l).map (·.socket)

lemma claimed_eq_nil {x : Stride κ} {i : Nat} (h : Moment.claimed? i (x.move, x.outcome) = none) :
    x.claimed i = [] := by
  rw [claimed, h]
  rfl

lemma dropped_eq_nil {x : Stride κ} {i : Nat}
    (h : ∀ c es, x.before.job? i = some (.events (⟨c, .closed⟩ :: es)) →
      c ∉ (x.before.backlog i).sockets) : x.dropped i = [] := by
  rw [dropped, List.map_eq_nil_iff, List.filter_eq_nil_iff]
  rintro ⟨c, kind⟩ he hc
  obtain ⟨hkind, hmem⟩ := of_decide_eq_true hc
  obtain rfl : kind = .closed := hkind
  obtain ⟨es, hj⟩ := Moment.event?_eq_some_iff.mp (Option.mem_toList.mp he)
  exact h c es hj hmem

lemma arrived_eq_nil {x : Stride κ} {i : Nat}
    (h : ∀ c l es, x.before.job? i = some (.events (⟨c, .accepted l⟩ :: es)) →
      x.before.listening? i ≠ some l) : x.arrived i = [] := by
  rw [arrived, List.map_eq_nil_iff, List.filter_eq_nil_iff]
  rintro ⟨c, kind⟩ he hc
  obtain ⟨l, hl, hkind⟩ := (Option.any_eq_true _ _).mp hc
  obtain rfl : kind = .accepted l := of_decide_eq_true hkind
  obtain ⟨es, hj⟩ := Moment.event?_eq_some_iff.mp (Option.mem_toList.mp he)
  exact h c l es hj hl

lemma arrived_eq {x : Stride κ} {i : Nat} {c l : SocketId} {es : List SocketEvent}
    (hj : x.before.job? i = some (.events (⟨c, .accepted l⟩ :: es)))
    (hl : x.before.listening? i = some l) : x.arrived i = [c] := by
  rw [arrived, Moment.event?_eq_some_iff.mpr ⟨es, hj⟩, hl]
  simp

lemma arrived_subset (x : Stride κ) (i : Nat) : x.arrived i ⊆ x.before.arriving := by
  intro c hc
  obtain ⟨⟨c, kind⟩, he, rfl⟩ := List.mem_map.mp hc
  obtain ⟨he, hkind⟩ := List.mem_filter.mp he
  obtain ⟨l, -, hkind⟩ := (Option.any_eq_true _ _).mp hkind
  obtain rfl : kind = .accepted l := of_decide_eq_true hkind
  obtain ⟨es, hj⟩ := Moment.event?_eq_some_iff.mp (Option.mem_toList.mp he)
  exact Moment.mem_arriving_of_job? hj

lemma dropped_eq {x : Stride κ} {i : Nat} {c : SocketId} {es : List SocketEvent}
    (hj : x.before.job? i = some (.events (⟨c, .closed⟩ :: es)))
    (hc : c ∈ (x.before.backlog i).sockets) : x.dropped i = [c] := by
  rw [dropped, Moment.event?_eq_some_iff.mpr ⟨es, hj⟩]
  simp [hc]

lemma shed_eq_nil {x : Stride κ} {i : Nat}
    (h : Moment.unlistens i x.move = true → x.before.backlog i = []) : x.shed i = [] := by
  rw [shed]
  split
  · next hs =>
    rw [h hs]
    rfl
  · rfl

lemma turnover_eq {x : Stride κ} {i : Nat} {u : Turnover}
    (hf : Turnover.Flow (x.before.backlog i) u (x.after.backlog i))
    (hb : (x.after.backlog i).sockets.Nodup) (hc : x.claimed i = u.claimed)
    (hd : x.dropped i = u.dropped) (hs : x.shed i = u.shed) : x.turnover i = u := by
  rw [turnover, hc, hd, hs, admitted, hf.admitted_eq hb, offered, hf.offered_eq hb]

end Stride

lemma Manager.Coherent.nodup_backlog {κ : Type} {m : Manager κ} (hm : m.Coherent) :
    m.backlog.sockets.Nodup := by
  rw [List.nodup_iff_count_le_one]
  intro c
  have hc := hm.single c
  rw [Manager.held, List.append_assoc, List.count_append] at hc
  omega

namespace Moment

variable {κ : Type} {w w' : Moment κ} {i : Nat} {m m' : Manager κ} {mv : Move κ} {o : Outcome κ}

/-- What a stride does to manager `i` is in its turnover and in the totals. -/
structure Booked (x : Stride κ) (i : Nat) (m m' : Manager κ) : Prop where
  flow : Turnover.Flow m.backlog (x.turnover i) m'.backlog
  fresh : x.admitted i ⊆ x.arrived i
  accepted : m'.totals.accepted = m.totals.accepted + (x.admitted i).length
  handled : m'.totals.accepted + m'.totals.rejected =
    m.totals.accepted + m.totals.rejected + (x.arrived i).length
  offer : (∃ cb, x.outcome = .notice i (.offer cb)) ↔ x.offered i ≠ []

lemma Booked.of_turnover {x : Stride κ} {u : Turnover} {cs : List SocketId}
    (hf : Turnover.Flow m.backlog u m'.backlog) (hu : x.turnover i = u) (harr : x.arrived i = cs)
    (hnew : u.admitted ⊆ cs) (ha : m'.totals.accepted = m.totals.accepted + u.admitted.length)
    (hk : m'.totals.accepted + m'.totals.rejected =
      m.totals.accepted + m.totals.rejected + cs.length)
    (ho : (∃ cb, x.outcome = .notice i (.offer cb)) ↔ u.offered ≠ []) : Booked x i m m' := by
  subst hu harr
  exact ⟨hf, hnew, ha, hk, ho⟩

lemma Booked.of_quiet {x : Stride κ} {u : Turnover} (hf : Turnover.Flow m.backlog u m'.backlog)
    (hu : x.turnover i = u) (harr : x.arrived i = []) (hadm : u.admitted = []) (hoff : u.offered = [])
    (ha : m'.totals.accepted = m.totals.accepted) (hr : m'.totals.rejected = m.totals.rejected)
    (ho : ∀ cb, x.outcome ≠ .notice i (.offer cb)) : Booked x i m m' := by
  refine .of_turnover hf hu harr ?_ ?_ ?_
    ⟨fun ⟨cb, he⟩ => absurd he (ho cb), fun he => absurd hoff he⟩
  · rw [hadm]
    exact List.nil_subset _
  · rw [hadm]
    exact ha
  · rw [ha, hr]
    rfl

lemma turnover_of_flow (h : Step w mv o w') (hw : w.Orderly) (hm : w.manager? i = some m)
    (hm' : w'.manager? i = some m') {u : Turnover} (hf : Turnover.Flow m.backlog u m'.backlog)
    (hc : Stride.claimed ⟨w, mv, o, w'⟩ i = u.claimed)
    (hd : Stride.dropped ⟨w, mv, o, w'⟩ i = u.dropped) (hs : Stride.shed ⟨w, mv, o, w'⟩ i = u.shed) :
    Stride.turnover ⟨w, mv, o, w'⟩ i = u := by
  refine Stride.turnover_eq ?_ ?_ hc hd hs
  · rw [backlog_eq hm, backlog_eq hm']
    exact hf
  · rw [backlog_eq hm']
    exact (((h.stage hw).orderly hw).coherent i m' hm').nodup_backlog

lemma Step.no_event (h : Step w mv o w') (hmv : mv ≠ .proceed) :
    Stride.dropped ⟨w, mv, o, w'⟩ i = [] ∧ Stride.arrived ⟨w, mv, o, w'⟩ i = [] :=
  ⟨Stride.dropped_eq_nil fun _ _ hj => absurd (move_of_job? hj h) hmv,
    Stride.arrived_eq_nil fun _ _ _ hj => absurd (move_of_job? hj h) hmv⟩

lemma listening?_eq_some_iff (hm : w.manager? i = some m) (l : SocketId) :
    w.listening? i = some l ↔ m.front.Listens l := by
  rw [listening?, hm, Option.bind_some]
  rfl

lemma Service.booked (hserve : Service w i m.front mv o m'.front) (h : Step w mv o w')
    (hw : w.Orderly) (hm : w.manager? i = some m) (hm' : w'.manager? i = some m')
    (hrelease : mv ≠ .release i) (hshut : m.listener = none → m.backlog = []) :
    Booked ⟨w, mv, o, w'⟩ i m m' := by
  have hturn {u : Turnover} (hflow : Turnover.Flow m.backlog u m'.backlog) :=
    turnover_of_flow h hw hm hm' hflow
  have hno (hmv : mv ≠ .proceed) := h.no_event (i := i) hmv
  generalize hf : m'.front = f' at hserve
  have hb : m'.backlog = f'.backlog := congrArg Front.backlog hf
  have ha : m'.totals.accepted = f'.accepted := congrArg Front.accepted hf
  have hr : m'.totals.rejected = f'.rejected := congrArg Front.rejected hf
  have hkeep : f'.backlog = m.backlog → Turnover.Flow m.backlog {} m'.backlog := by
    intro he
    rw [hb, he]
    exact .still _
  cases hserve with
  | idle mv o hclaim hclose huse hoffer harrival hclosed hend =>
    have hdrop : Stride.dropped ⟨w, mv, o, w'⟩ i = [] := by
      refine Stride.dropped_eq_nil fun c es hj => ?_
      rw [backlog_eq hm]
      exact hclosed c es hj
    have hshed : Stride.shed ⟨w, mv, o, w'⟩ i = [] := by
      refine Stride.shed_eq_nil fun hs => ?_
      rcases unlistens_eq_true_iff.mp hs with hc | hc
      · exact (backlog_eq hm).trans (hshut (hclose hc))
      · exact absurd hc hrelease
    have harr : Stride.arrived ⟨w, mv, o, w'⟩ i = [] :=
      Stride.arrived_eq_nil fun c l es hj hl =>
        harrival c l es hj ((listening?_eq_some_iff hm l).mp hl)
    have hflow := hkeep rfl
    exact .of_quiet hflow (hturn hflow (Stride.claimed_eq_nil hclaim) hdrop hshed) harr rfl rfl ha hr
      hoffer
  | opened | closed | read =>
    obtain ⟨hdrop, harr⟩ := hno nofun
    have hflow := hkeep rfl
    exact .of_quiet hflow (hturn hflow rfl hdrop rfl) harr rfl rfl ha hr nofun
  | shut hl =>
    obtain ⟨hdrop, harr⟩ := hno nofun
    have hflow : Turnover.Flow m.backlog { shed := m.backlog.sockets } m'.backlog := by
      rw [hb]
      exact .shed _
    refine .of_quiet hflow (hturn hflow rfl hdrop ?_) harr rfl rfl ha hr nofun
    rw [Stride.shed, backlog_eq hm]
    exact if_pos (decide_eq_true rfl)
  | claimed g p b hbl hg =>
    obtain ⟨hdrop, harr⟩ := hno nofun
    have hflow : Turnover.Flow m.backlog { claimed := [p.socket] } m'.backlog := by
      rw [hb, show m.backlog = p :: b from hbl]
      exact .claim p b
    refine .of_quiet hflow (hturn hflow ?_ hdrop rfl) harr rfl rfl ha hr nofun
    have hatt : m'.front.attached g = some (p.socket, w.network.clock) := by
      rw [hf]
      exact Function.update_self ..
    rw [Stride.claimed, claimed?_eq_some_iff.mpr ⟨rfl, rfl⟩, Option.bind_some, socket?_eq hm' hatt]
    rfl
  | arrived c l es hj hl f' hf' =>
    have harr := Stride.arrived_eq (x := ⟨w, .proceed, .done, w'⟩) hj
      ((listening?_eq_some_iff hm l).mpr hl)
    have hdrop : Stride.dropped ⟨w, .proceed, .done, w'⟩ i = [] :=
      Stride.dropped_eq_nil fun d ds hd => by cases hj.symm.trans hd
    have hadmit : f'.backlog = m.backlog.push c w.network.clock →
        f'.accepted = m.totals.accepted + 1 → f'.rejected = m.totals.rejected →
        Booked ⟨w, .proceed, .done, w'⟩ i m m' := by
      intro hback hacc hrej
      have hflow : Turnover.Flow m.backlog { admitted := [c] } m'.backlog := by
        rw [hb, hback]
        exact .push _ c w.network.clock
      refine .of_turnover hflow (hturn hflow rfl hdrop rfl) harr (List.Subset.refl _) (ha.trans hacc) ?_
        ⟨nofun, fun he => absurd rfl he⟩
      rw [ha, hr, hacc, hrej]
      exact Nat.add_right_comm _ 1 _
    cases hf' with
    | refused hv =>
      have hflow := hkeep rfl
      refine .of_turnover hflow (hturn hflow rfl hdrop rfl) harr (List.nil_subset _) ha ?_
        ⟨nofun, fun he => absurd rfl he⟩
      rw [ha, hr]
      rfl
    | admitted | evicted => exact hadmit rfl rfl rfl
  | withdrawn c es hj hc =>
    have hdrop : Stride.dropped ⟨w, .proceed, .done, w'⟩ i = [c] :=
      Stride.dropped_eq hj ((backlog_eq hm).symm ▸ hc)
    have harr : Stride.arrived ⟨w, .proceed, .done, w'⟩ i = [] :=
      Stride.arrived_eq_nil fun d l ds hd => by cases hj.symm.trans hd
    have hflow : Turnover.Flow m.backlog { dropped := [c] } m'.backlog := by
      rw [hb]
      exact .drop _ c hc
    exact .of_quiet hflow (hturn hflow rfl hdrop rfl) harr rfl rfl ha hr nofun
  | lost c es hj hc g t hg =>
    have hdrop : Stride.dropped ⟨w, .proceed, .done, w'⟩ i = [] := by
      refine Stride.dropped_eq_nil fun d ds hd => ?_
      cases hj.symm.trans hd
      rw [backlog_eq hm]
      exact hc
    have harr : Stride.arrived ⟨w, .proceed, .done, w'⟩ i = [] :=
      Stride.arrived_eq_nil fun d l ds hd => by cases hj.symm.trans hd
    have hflow := hkeep rfl
    exact .of_quiet hflow (hturn hflow rfl hdrop rfl) harr rfl rfl ha hr nofun
  | offered l p b hj hl hmay hbl =>
    have hdrop : Stride.dropped ⟨w, .proceed, .notice i (.offer l.callback), w'⟩ i = [] :=
      Stride.dropped_eq_nil fun d ds hd => by cases hj.symm.trans hd
    have harr : Stride.arrived ⟨w, .proceed, .notice i (.offer l.callback), w'⟩ i = [] :=
      Stride.arrived_eq_nil fun d l ds hd => by cases hj.symm.trans hd
    have hflow : Turnover.Flow m.backlog { offered := [p.socket] } m'.backlog := by
      rw [hb]
      exact .offer _ b p hbl
    refine .of_turnover hflow (hturn hflow rfl hdrop rfl) harr (List.nil_subset _) ha ?_
      ⟨fun _ => List.cons_ne_nil _ _, fun _ => ⟨_, rfl⟩⟩
    rw [ha, hr]
    rfl

lemma Service.idle_backlog (hserve : Service w i m.front mv o m'.front)
    (hshut : m.listener = none → m.backlog = []) (hl : m'.listener = none) : m'.backlog = [] := by
  generalize hf : m'.front = f' at hserve
  have hb : m'.backlog = f'.backlog := congrArg Front.backlog hf
  have hl' : f'.listener = none := hf ▸ hl
  rw [hb]
  cases hserve with
  | idle | closed | read | lost => exact hshut hl'
  | opened cb reply l hno => cases hl'
  | shut => rfl
  | claimed g p b hbl hg =>
    have hnil : p :: b = [] := hbl ▸ hshut hl'
    cases hnil
  | arrived c l es hj hlisten f' hf' =>
    have hopen : m.listener ≠ none := by
      intro hno
      have hlisten' : m.listener.map (·.socket) = some l := hlisten
      rw [hno] at hlisten'
      cases hlisten'
    cases hf' <;> exact absurd hl' hopen
  | withdrawn c es hj hc =>
    have hmem : c ∈ Backlog.sockets [] := hshut hl' ▸ hc
    cases hmem
  | offered l p b hj hlisten hmay hbl =>
    have hl'' : m.listener = none := hl'
    cases hl''.symm.trans hlisten

lemma manager?_of_le (hi : w.managers.length ≤ i) : w.manager? i = none := by
  rw [Option.eq_none_iff_forall_ne_some]
  exact fun m hm => absurd (lt_of_manager? hm) (Nat.not_lt.mpr hi)

lemma turnover_away (hm : w.manager? i = none) (hb : w'.backlog i = []) (hc : ∀ c, mv ≠ .call i c) :
    Stride.turnover ⟨w, mv, o, w'⟩ i = {} ∧ Stride.arrived ⟨w, mv, o, w'⟩ i = [] := by
  have hnone : claimed? i (mv, o) = none :=
    Option.eq_none_iff_forall_ne_some.mpr fun h hh => hc _ (claimed?_eq_some_iff.mp hh).1
  have hback := backlog_eq_nil hm
  refine ⟨Stride.turnover_eq ?_ ?_ (Stride.claimed_eq_nil hnone) ?_ ?_, Stride.arrived_eq_nil ?_⟩
  · rw [hback, hb]
    exact .still _
  · rw [hb]
    exact List.nodup_nil
  · refine Stride.dropped_eq_nil fun c es _ => ?_
    rw [hback]
    exact List.not_mem_nil
  · exact Stride.shed_eq_nil fun _ => hback
  · intro c l es _ hl
    rw [listening?, hm, Option.bind_none] at hl
    cases hl

lemma turnover_gone {m : Manager κ} (hm : w.manager? i = some m) (hm' : w'.manager? i = none)
    (hj : ∀ a, w.job? i ≠ some a) :
    Stride.turnover ⟨w, .release i, .done, w'⟩ i = { shed := m.backlog.sockets } := by
  refine Stride.turnover_eq ?_ ?_ rfl (Stride.dropped_eq_nil fun c es h => absurd h (hj _)) ?_
  · rw [backlog_eq hm, backlog_eq_nil hm']
    exact .shed _
  · rw [backlog_eq_nil hm']
    exact List.nodup_nil
  · rw [Stride.shed, backlog_eq hm]
    exact if_pos (decide_eq_true rfl)

def turnover (i : Nat) (tr : List (Stride κ)) : Turnover := .total (tr.map (·.turnover i))

def arrivals (i : Nat) (tr : List (Stride κ)) : List SocketId := tr.flatMap (·.arrived i)

lemma turnover_concat (i : Nat) (tr : List (Stride κ)) (x : Stride κ) :
    turnover i (tr ++ [x]) = (turnover i tr).add (x.turnover i) := by
  rw [turnover, List.map_append, List.map_singleton, Turnover.total_concat, turnover]

lemma arrivals_concat (i : Nat) (tr : List (Stride κ)) (x : Stride κ) :
    arrivals i (tr ++ [x]) = arrivals i tr ++ x.arrived i := by
  rw [arrivals, List.flatMap_append, List.flatMap_singleton, arrivals]

structure Posts (x : Stride κ) (i : Nat) : Prop where
  flow : Turnover.Flow (x.before.backlog i) (x.turnover i) (x.after.backlog i)
  fresh : x.admitted i ⊆ x.arrived i
  offer : (∃ cb, x.outcome = .notice i (.offer cb)) ↔ x.offered i ≠ []

lemma Posts.of_turnover {x : Stride κ} {i : Nat} {u : Turnover} (hu : x.turnover i = u)
    (hf : Turnover.Flow (x.before.backlog i) u (x.after.backlog i)) (ha : u.admitted = [])
    (ho : u.offered = []) (hn : ∀ n, x.outcome ≠ .notice i n) : Posts x i := by
  subst hu
  have ha' : x.admitted i = [] := ha
  refine ⟨hf, ha' ▸ List.nil_subset _, ?_⟩
  exact ⟨fun ⟨cb, he⟩ => absurd he (hn _), fun he => absurd ho he⟩

lemma Serves.posts (hs : Serves w i w' mv o) (h : Step w mv o w') (hw : w.Orderly)
    (hshut : ∀ m, w.manager? i = some m → m.listener = none → m.backlog = []) :
    Posts ⟨w, mv, o, w'⟩ i := by
  cases hs with
  | away mv o hm hm' ho hc =>
    obtain ⟨hu, -⟩ := turnover_away (o := o) hm (backlog_eq_nil hm') hc
    refine .of_turnover hu ?_ rfl rfl ho
    rw [backlog_eq_nil hm, backlog_eq_nil hm']
    exact .still _
  | born p hi hm' =>
    have hm := manager?_of_le (Nat.le_of_eq hi)
    have hb : w'.backlog i = [] := backlog_eq hm'
    have hno : ∀ c : Call Handle κ, Move.create p ≠ .call i c := nofun
    obtain ⟨hu, -⟩ := turnover_away (o := .done) hm hb hno
    refine .of_turnover hu ?_ rfl rfl fun n he => by cases he
    rw [backlog_eq_nil hm, hb]
    exact .still _
  | gone m hm hm' =>
    have hu := turnover_gone hm hm' fun a ha => by cases move_of_job? ha h
    refine .of_turnover hu ?_ rfl rfl fun n he => by cases he
    rw [backlog_eq hm, backlog_eq_nil hm']
    exact .shed _
  | serves mv o m m' hm hm' hs hr =>
    obtain ⟨hflow, hfresh, -, -, hoffer⟩ := hs.booked h hw hm hm' hr (hshut m hm)
    refine ⟨?_, hfresh, hoffer⟩
    rw [backlog_eq hm, backlog_eq hm']
    exact hflow

/-- The trace of a run accounts for the backlog and the totals of manager `i`. -/
structure Audited (i : Nat) (past : List (Stride κ)) (w : Moment κ) : Prop where
  accounts : (turnover i past).Accounts (w.backlog i)
  known : ∀ c ∈ (turnover i past).admitted, c.num < w.network.nextId ∧ c ∉ w.arriving
  shut : ∀ m, w.manager? i = some m → m.listener = none → m.backlog = []
  unborn : w.managers.length ≤ i → (turnover i past).admitted = [] ∧ arrivals i past = []
  totals : ∀ m, w.manager? i = some m → m.totals.accepted = (turnover i past).admitted.length ∧
    m.totals.accepted + m.totals.rejected = (arrivals i past).length
  offers : ∀ x ∈ past, ((∃ cb, x.outcome = .notice i (.offer cb)) ↔ x.offered i ≠ []) ∧
    (x.offered i).length ≤ 1

lemma mem_held_of_mem_backlog {c : SocketId} (hc : c ∈ (w.backlog i).sockets) :
    ∃ m, w.manager? i = some m ∧ c ∈ m.held := by
  cases hm : w.manager? i with
  | none =>
    rw [backlog_eq_nil hm] at hc
    cases hc
  | some m =>
    rw [backlog_eq hm] at hc
    exact ⟨m, rfl, by simp [Manager.held, hc]⟩

lemma Orderly.of_mem_backlog (hw : w.Orderly) {c : SocketId} (hc : c ∈ (w.backlog i).sockets) :
    c.num < w.network.nextId ∧ c ∉ w.arriving := by
  obtain ⟨m, hm, hheld⟩ := mem_held_of_mem_backlog hc
  have htoken := mem_tokens_of_mem_held hm hheld
  refine ⟨hw.fresh c htoken, fun harr => ?_⟩
  have hmem : c ∈ w.held :=
    List.mem_flatMap.mpr ⟨some m, List.mem_of_getElem? ((w.manager?_eq_some_iff i m).mp hm), hheld⟩
  have hone := hw.single c
  rw [tokens, List.count_append] at hone
  have h₁ := List.count_pos_iff.mpr harr
  have h₂ := List.count_pos_iff.mpr hmem
  omega

namespace Audited

variable {past : List (Stride κ)}

lemma known_step (ha : Audited i past w) (h : Step w mv o w') (hw : w.Orderly) {c : SocketId}
    (hc : c ∈ (turnover i (past ++ [⟨w, mv, o, w'⟩])).admitted) :
    c.num < w'.network.nextId ∧ c ∉ w'.arriving := by
  have hstage := h.stage hw
  rw [turnover_concat, Turnover.add] at hc
  rcases List.mem_append.mp hc with hold | hnew
  · exact Landed.stage (ha.known c hold) hstage
  · exact (hstage.orderly hw).of_mem_backlog (List.mem_filter.mp hnew).1

lemma shut_step (ha : Audited i past w) (hs : Serves w i w' mv o) (hm' : w'.manager? i = some m')
    (hl : m'.listener = none) : m'.backlog = [] := by
  cases hs with
  | away mv o hm hnone ho hc =>
    rw [hnone] at hm'
    cases hm'
  | born p hi hm =>
    cases hm.symm.trans hm'
    rfl
  | gone m hm hnone =>
    rw [hnone] at hm'
    cases hm'
  | serves mv o m₀ m₁ hm hm₁ hs hr =>
    cases hm₁.symm.trans hm'
    exact hs.idle_backlog (ha.shut m₀ hm) hl

lemma unborn_step (ha : Audited i past w) (hs : Serves w i w' mv o) (h : Step w mv o w')
    (hi : w'.managers.length ≤ i) : (turnover i (past ++ [⟨w, mv, o, w'⟩])).admitted = [] ∧
      arrivals i (past ++ [⟨w, mv, o, w'⟩]) = [] := by
  have hi₀ := Nat.le_trans h.length_le hi
  obtain ⟨hpast, harr⟩ := ha.unborn hi₀
  have hno : ∀ m, w'.manager? i ≠ some m :=
    fun m hm => absurd (lt_of_manager? hm) (Nat.not_lt.mpr hi)
  cases hs with
  | away mv o hm hm' ho hc =>
    obtain ⟨hu, hx⟩ := turnover_away (o := o) hm (backlog_eq_nil hm') hc
    rw [turnover_concat, arrivals_concat, hu, hx, harr]
    exact ⟨(List.append_nil _).trans hpast, rfl⟩
  | born p hlen hm => exact absurd hm (hno _)
  | gone m hm hm' => exact absurd (lt_of_manager? hm) (Nat.not_lt.mpr hi₀)
  | serves mv o m₀ m₁ hm hm₁ hs hr => exact absurd hm₁ (hno _)

lemma totals_step (ha : Audited i past w) (hs : Serves w i w' mv o) (h : Step w mv o w')
    (hw : w.Orderly) (hm' : w'.manager? i = some m') :
    m'.totals.accepted = (turnover i (past ++ [⟨w, mv, o, w'⟩])).admitted.length ∧
      m'.totals.accepted + m'.totals.rejected =
        (arrivals i (past ++ [⟨w, mv, o, w'⟩])).length := by
  rw [turnover_concat, arrivals_concat, Turnover.add, List.length_append, List.length_append]
  cases hs with
  | away mv o hm hnone ho hc =>
    rw [hnone] at hm'
    cases hm'
  | born p hi hm =>
    have hno : ∀ c : Call Handle κ, Move.create p ≠ .call i c := nofun
    obtain ⟨hu, hx⟩ :=
      turnover_away (o := .done) (manager?_of_le (Nat.le_of_eq hi)) (backlog_eq hm) hno
    obtain ⟨hpast, harr⟩ := ha.unborn (Nat.le_of_eq hi)
    cases hm.symm.trans hm'
    rw [hu, hx, hpast, harr]
    exact ⟨rfl, rfl⟩
  | gone m hm hnone =>
    rw [hnone] at hm'
    cases hm'
  | serves mv o m₀ m₁ hm hm₁ hs hr =>
    cases hm₁.symm.trans hm'
    obtain ⟨haccepted, hall⟩ := ha.totals m₀ hm
    have hbooked := hs.booked h hw hm hm₁ hr (ha.shut m₀ hm)
    rw [← haccepted, ← hall]
    exact ⟨hbooked.accepted, hbooked.handled⟩

lemma step (ha : Audited i past w) (h : Step w mv o w') (hw : w.Orderly)
    (hserves : Serves w i w' mv o) : Audited i (past ++ [⟨w, mv, o, w'⟩]) w' := by
  have hposts := hserves.posts h hw ha.shut
  refine ⟨?_, fun c hc => ha.known_step h hw hc, fun m hm hl => ha.shut_step hserves hm hl,
    ha.unborn_step hserves h, fun m hm => ha.totals_step hserves h hw hm, ?_⟩
  -- What is admitted now was still on its way, so it was not admitted before.
  · rw [turnover_concat]
    exact ha.accounts.add hposts.flow fun c hc hold =>
      (ha.known c hold).2 (Stride.arrived_subset _ i (hposts.fresh hc))
  · rw [List.forall_mem_append, List.forall_mem_singleton]
    exact ⟨ha.offers, hposts.offer, hposts.flow.length_offered⟩

end Audited

lemma audited_run {ports : PortSource} {mvs : List (Move κ)} {es : History κ}
    (hr : (initial ports).run mvs = some (es, w)) (i : Nat) :
    Audited i ((initial ports).trace mvs) w := by
  refine trace_invariant (P := Audited i) ⟨Turnover.accounts_nil, ?_, ?_, ?_, ?_, ?_⟩ ?_ hr
  · exact fun c hc => absurd hc List.not_mem_nil
  · exact fun m hm => by simp [manager?, initial] at hm
  · exact fun _ => ⟨rfl, rfl⟩
  · exact fun m hm => by simp [manager?, initial] at hm
  · exact fun x hx => absurd hx List.not_mem_nil
  · exact fun past w₁ mv o w₂ hreach ha h => ha.step h hreach.orderly (hreach.serves h i)

/-- Every admitted connection enters the backlog once and leaves it once: it is claimed, or it ends while
it is pending, or the listener is closed. Connections are claimed and offered in the order of their
admissions. -/
theorem admitted_leave_once {ports : PortSource} {mvs : List (Move κ)} {es : History κ}
    (hr : (initial ports).run mvs = some (es, w)) (i : Nat) :
    let t := turnover i ((initial ports).trace mvs)
    t.admitted.Nodup ∧
      t.admitted.Perm ((w.backlog i).sockets ++ t.claimed ++ t.dropped ++ t.shed) ∧
      (t.claimed ++ (w.backlog i).sockets).Sublist t.admitted ∧
      (w.backlog i).filter (·.offered) <+: w.backlog i ∧
      (t.offered ++ (w.backlog i).unshown).Sublist t.admitted ∧ t.offered.Nodup ∧
      (∀ x ∈ (initial ports).trace mvs,
        ((∃ cb, x.outcome = .notice i (.offer cb)) ↔ x.offered i ≠ []) ∧ (x.offered i).length ≤ 1) ∧
      ∀ m, w.manager? i = some m →
        m.totals.accepted =
            m.backlog.length + t.claimed.length + t.dropped.length + t.shed.length ∧
          m.totals.accepted + m.totals.rejected =
            (arrivals i ((initial ports).trace mvs)).length := by
  obtain ⟨⟨honce, hall, hclaims, hfront, hoffers⟩, -, -, -, htotals, hshown⟩ := audited_run hr i
  refine ⟨honce, hall, hclaims, Backlog.filter_prefix hfront, hoffers, ?_, hshown, fun m hm => ?_⟩
  · exact (hoffers.nodup honce).of_append_left
  · obtain ⟨haccepted, hhandled⟩ := htotals m hm
    refine ⟨?_, hhandled⟩
    rw [haccepted, hall.length_eq, backlog_eq hm, Backlog.sockets]
    simp only [List.length_append, List.length_map]

/-- Two peers connect; one is claimed inside the offer, the other one goes. -/
def parting : List (Move Unit) :=
  [.create ⟨some 9000, 2, 2, 0, 0, 0, 64, 0⟩, .call 0 (.openListener ()), .network (.connect 9000),
    .network (.connect 9000), .begin 0, .proceed, .proceed, .proceed, .proceed, .proceed, .proceed,
    .call 0 .accept, .leave, .proceed, .network (.peerClose ⟨3⟩), .begin 0, .proceed]

theorem admitted_leave_once_parting : ∃ es w m, (initial .standard).run parting = some (es, w) ∧
    w.manager? 0 = some m ∧ m.totals.accepted = 2 ∧ m.backlog = [] ∧
    (turnover 0 ((initial .standard).trace parting)).claimed = [⟨2⟩] ∧
    (turnover 0 ((initial .standard).trace parting)).dropped = [⟨3⟩] ∧
    (turnover 0 ((initial .standard).trace parting)).admitted.Perm [⟨2⟩, ⟨3⟩] := by
  have hrun : ∃ es w m, (initial .standard).run parting = some (es, w) ∧ w.manager? 0 = some m ∧
      m.totals.accepted = 2 ∧ m.backlog = [] := ⟨_, _, _, rfl, rfl, rfl, rfl⟩
  obtain ⟨es, w, m, hr, hm, ha, hb⟩ := hrun
  obtain ⟨-, hall, -⟩ := admitted_leave_once hr 0
  rw [backlog_eq hm, hb] at hall
  exact ⟨es, w, m, hr, hm, ha, hb, rfl, rfl, hall⟩

end Moment

end BoundedStreams
