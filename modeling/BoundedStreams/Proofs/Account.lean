import BoundedStreams.Proofs.Bystander
import BoundedStreams.Proofs.WakeUp
import Mathlib

/-! An account of the bytes that an echo service has to do with: those that wait to be read, those that are
left over in its sessions, and those that it echoed. None but the peers pays in. -/

namespace BoundedStreams

lemma Table.sum_set {α β : Type} [DecidableEq α] (t : Table α β) (k : α) (b : β) (f : β → Nat) :
    ((t.set k b).entries.map (f ·.2)).sum + (t.get? k).elim 0 f =
      (t.entries.map (f ·.2)).sum + f b := by
  obtain ⟨es⟩ := t
  simp only [set, get?]
  induction es with
  | nil => simp [replace, find]
  | cons e es ih =>
    by_cases he : e.1 = k
    · simp only [replace, find, he, if_true, List.map_cons, List.sum_cons, Option.elim_some]
      omega
    · simp only [replace, find, he, if_false, List.map_cons, List.sum_cons]
      omega

namespace Network

variable {n n' : Network} {c : SocketId}

/-- How many bytes wait to be read. -/
def unread (n : Network) : Nat := ∑ c ∈ n.connections.keys.toFinset, n.inboundLen c

lemma unread_eq_sum (n : Network) (cs : Finset SocketId) (h : n.connections.keys.toFinset ⊆ cs) :
    n.unread = ∑ c ∈ cs, n.inboundLen c := by
  refine Finset.sum_subset h fun c _ hc => ?_
  rw [List.mem_toFinset, ← Table.get?_eq_none_iff] at hc
  rw [inboundLen, get?, hc, Option.elim_none]

/-- What is done to one connection alone shifts the sum by as much as it shifts there. -/
lemma unread_shift {x y : Nat} (hc : n'.inboundLen c + x ≤ n.inboundLen c + y)
    (ho : ∀ d, d ≠ c → n'.inboundLen d ≤ n.inboundLen d) : n'.unread + x ≤ n.unread + y := by
  let cs := insert c (n.connections.keys.toFinset ∪ n'.connections.keys.toFinset)
  have hmem : c ∈ cs := Finset.mem_insert_self _ _
  have hn := n.unread_eq_sum cs (Finset.subset_union_left.trans (Finset.subset_insert _ _))
  have hn' := n'.unread_eq_sum cs (Finset.subset_union_right.trans (Finset.subset_insert _ _))
  rw [← Finset.add_sum_erase cs _ hmem] at hn hn'
  have hrest : ∑ d ∈ cs.erase c, n'.inboundLen d ≤ ∑ d ∈ cs.erase c, n.inboundLen d :=
    Finset.sum_le_sum fun d hd => ho d (Finset.ne_of_mem_erase hd)
  omega

lemma unread_le (h : ∀ c, n'.inboundLen c ≤ n.inboundLen c) : n'.unread ≤ n.unread :=
  unread_shift (c := ⟨0⟩) (x := 0) (y := 0) (h _) fun d _ => h d

lemma Conveys.inboundLen_le (h : Conveys c n n') : n'.inboundLen c ≤ n.inboundLen c := by
  rw [inboundLen, inboundLen]
  cases hq' : n'.get? c with
  | none => exact Nat.zero_le _
  | some q' =>
    obtain ⟨q, hq, hx⟩ := h q' hq'
    rw [hq, Option.elim_some, Option.elim_some, hx.inbound]

lemma Sheds.unread_le (h : n.Sheds n') : n'.unread ≤ n.unread :=
  Network.unread_le fun c => (h.conveys c).inboundLen_le

lemma inboundLen_send (n : Network) (c d : SocketId) (bs : Bytes) :
    (n.send c bs).inboundLen d = n.inboundLen d := by
  rw [inboundLen, inboundLen, get?_send]
  split
  · cases n.get? d <;> rfl
  · rfl

/-- How many bytes an action brings in from a peer. -/
def incoming (n : Network) : Action → Nat
  | .peerSend c bs => if n.isOpen c then bs.length else 0
  | _ => 0

open Daemon in
lemma unread_perform {κ : Type} (n : Network) {a : Action}
    (ha : (Act.network a : Act κ).fair = true) :
    (n.perform a).2.unread ≤ n.unread + n.incoming a := by
  have hshut : ∀ c, a.tampers c = false := fun c => by cases a <;> first | rfl | cases ha
  -- Where no peer sends, what is found in a connection was there before.
  have hconvey : (∀ p, a ≠ .connect p) → (∀ c bs, a ≠ .peerSend c bs) →
      (n.perform a).2.unread ≤ n.unread := by
    intro hnew hsend
    refine unread_le fun c => ?_
    rw [inboundLen, inboundLen]
    cases hq' : (n.perform a).2.get? c with
    | none => exact Nat.zero_le _
    | some q' =>
      have hold : (∃ p, a = .connect p) → c.num < n.nextId := by
        rintro ⟨p, hp⟩
        exact absurd hp (hnew p)
      obtain ⟨q, hq, hx⟩ := n.exchange_perform (κ := κ) (hshut c) hold hq'
      rw [hq, Option.elim_some, Option.elim_some]
      cases hx ⟨[], []⟩ with
      | conveyed ht hq => rw [hq.inbound]
      | taken ht hq => rw [hq]
      | sent bytes ht hq =>
        have hnil : bytes = [] := by
          have hsent := congrArg Talk.sent ht
          cases a with
          | peerSend d bs => exact absurd rfl (hsend d bs)
          | connect p => exact absurd rfl (hnew p)
          | peerTake d =>
            simp only [perform, Talk.hear] at hsent
            split at hsent <;> simpa using hsent.symm
          | _ => simpa [perform, Talk.hear] using hsent.symm
        rw [hq, hnil, List.append_nil]
  cases a with
  | connect p =>
    refine unread_le fun c => ?_
    rcases n.connect_eq p with h | ⟨l, h⟩ <;> simp only [perform, h]
    · exact Nat.le_refl _
    · simp only [inboundLen, get?, Table.get?_set]
      split
      · exact Nat.zero_le _
      · exact Nat.le_refl _
  | peerSend d bs =>
    refine unread_shift (c := d) (x := 0) ?_ fun c hc => ?_
    · have hget := n.get?_peerSend d d bs
      rw [if_pos rfl] at hget
      rw [inboundLen, inboundLen, perform, hget, incoming, isOpen_eq]
      rcases n.get? d with _ | q <;> simp
    · simp only [perform, inboundLen, get?_peerSend, if_neg (Ne.symm hc)]
      exact Nat.le_refl _
  | _ => exact hconvey (by simp) (by simp)

end Network

namespace Site

variable {κ : Type}

lemma unread_read (s : Site κ) (h : Handle) (k : Nat) :
    (s.read h k).2.network.unread + ((s.read h k).1.toOption.getD []).length ≤ s.network.unread := by
  cases hr : s.manager.streams.get? h with
  | none =>
    simp only [read, hr]
    exact Nat.le_refl _
  | some r =>
    have hread := reads hr k
    generalize s.read h k = p at hread ⊢
    cases hread with
    | lost hc | dry => exact Nat.le_refl _
    | bytes c q due s' hc hq hne hq' ho =>
      refine Network.unread_shift (c := c) (y := 0) ?_ fun d hd => ?_
      · simp only [Network.inboundLen, hq, hq', Option.elim_some, Except.toOption, Option.getD_some,
          List.length_drop, List.length_take]
        omega
      · rw [Network.inboundLen, Network.inboundLen, ho d hd]

lemma unread_write (s : Site κ) (h : Handle) (bytes : Bytes) :
    (s.write h bytes).2.network.unread ≤ s.network.unread ∧
      (s.write h bytes).1.toOption.getD 0 ≤ bytes.length := by
  rw [write]
  split
  · exact ⟨Nat.le_refl _, Nat.zero_le _⟩
  · split
    · exact ⟨Nat.le_refl _, Nat.zero_le _⟩
    · dsimp only
      split
      · exact ⟨Nat.le_refl _, Nat.zero_le _⟩
      · exact ⟨Network.unread_le fun d => (Network.inboundLen_send _ _ d _).le, Nat.min_le_left _ _⟩

/-- What the answers to notices do not add to, a turn does not add to. -/
lemma turn_spends {σ : Type} {consumer : Consumer κ σ} (f : σ → Nat)
    (h : ∀ n w, f (consumer n w).2 + (consumer n w).1.network.unread ≤ f w.2 + w.1.network.unread)
    (w : Site κ × σ) :
    f (turn consumer w).2 + (turn consumer w).1.network.unread ≤ f w.2 + w.1.network.unread := by
  obtain ⟨s, memory⟩ := w
  have hpoll : s.network.poll.2.unread ≤ s.network.unread :=
    Network.unread_le fun c => (s.network.inboundLen_poll c).le
  have hserve : ∀ (a b : Agenda) (job : Site κ → Site κ × Option (Notice κ)) (p : Site κ × σ),
      f p.2 + p.1.network.unread ≤ f memory + s.network.unread → a.next p.1 = (some b, job p.1) →
      f (serve consumer job p).2 + (serve consumer job p).1.network.unread ≤
        f memory + s.network.unread := by
    intro a b job p hp hjob
    have hnext := (p.1.sheds_next a).unread_le
    rw [hjob] at hnext
    rw [serve]
    rcases hj : job p.1 with ⟨s₁, _ | n⟩ <;> rw [hj] at hnext <;> dsimp only at hnext ⊢
    · omega
    · have hanswer := h n (s₁.enter, p.2)
      have hleave := (consumer n (s₁.enter, p.2)).1.sheds_leave.unread_le
      have henter : s₁.enter.network = s₁.network := rfl
      dsimp only at hanswer
      rw [henter] at hanswer
      omega
  obtain ⟨p, hp, he⟩ := turn_jobs
    (I := fun _ p => f p.2 + p.1.network.unread ≤ f memory + s.network.unread) hserve
    (Nat.add_le_add_left hpoll (f memory))
  have hflush : p.1.Sheds p.1.flush := ⟨_, rfl⟩
  have hlast := hflush.unread_le
  rw [he]
  dsimp only
  omega

end Site

namespace Echo

variable {κ : Type}

def owed (e : Echo) : Nat := (e.sessions.entries.map (·.2.length)).sum

lemma owed_keep (e : Echo) (h : Handle) (l : Bytes) :
    (e.keep h l).owed + (e.leftover h).length = e.owed + l.length := by
  have hsum := e.sessions.sum_set h l List.length
  rw [leftover]
  cases hl : e.sessions.get? h <;> rw [hl] at hsum <;> exact hsum

lemma owed_openSession (e : Echo) (h : Handle) : (e.openSession h).owed ≤ e.owed :=
  Nat.le_of_add_right_le (e.owed_keep h []).le

lemma owed_closeSession (e : Echo) (h : Handle) : (e.closeSession h).owed ≤ e.owed := by
  rw [closeSession]
  split
  · exact (List.filter_sublist.map _).sum_le_sum fun _ _ => Nat.zero_le _
  · exact Nat.le_refl _

lemma bytesEchoed_closeSession (e : Echo) (h : Handle) :
    (e.closeSession h).stats.bytesEchoed = e.stats.bytesEchoed := by
  rw [closeSession]
  split <;> rfl

/-- How many bytes were echoed or are still to be. -/
def account (w : Site κ × Echo) : Nat := w.2.stats.bytesEchoed + w.2.owed + w.1.network.unread

lemma account_endSession (h : Handle) (w : Site κ × Echo) : account (endSession h w) ≤ account w := by
  have hsite := (w.1.sheds_close h).unread_le
  have howed := w.2.owed_closeSession h
  have hechoed := w.2.bytesEchoed_closeSession h
  simp only [account, endSession, hechoed]
  show _ + _ + (w.1.close h).network.unread ≤ _
  omega

lemma unread_send (s : Site κ) (h : Handle) (bytes : Bytes) :
    (send s h bytes).2.network.unread ≤ s.network.unread ∧
      (send s h bytes).1.getD 0 ≤ bytes.length := by
  have hwrite := s.unread_write h bytes
  rw [send]
  split <;> next heq =>
    rw [heq] at hwrite
    exact hwrite

lemma account_onReadable (h : Handle) (w : Site κ × Echo) :
    account (onReadable h w).2 ≤ account w := by
  have hread := w.1.unread_read h chunk
  rw [onReadable]
  split
  · next s heq =>
    rw [heq] at hread
    exact Nat.add_le_add_left hread _
  · next s heq =>
    rw [heq] at hread
    exact Nat.add_le_add_left hread _
  · next s _ heq =>
    rw [heq] at hread
    exact Nat.add_le_add_left hread _
  · next bytes s _ heq =>
    rw [heq] at hread
    have hsend := unread_send s h bytes
    simp only [Except.toOption, Option.getD_some] at hread
    simp only [account]
    split
    · next t ht =>
      rw [ht] at hsend
      dsimp only at hsend ⊢
      omega
    · next n t ht =>
      rw [ht] at hsend
      simp only [Option.getD_some] at hsend
      split
      · show w.2.stats.bytesEchoed + n + w.2.owed + t.network.unread ≤ _
        omega
      · have howed := (w.2.countEchoed n).owed_keep h ((w.2.countEchoed n).leftover h ++ bytes.drop n)
        rw [List.length_append, List.length_drop] at howed
        have hsame : (w.2.countEchoed n).owed = w.2.owed := rfl
        show w.2.stats.bytesEchoed + n + Echo.owed ((w.2.countEchoed n).keep h _) + t.network.unread ≤ _
        omega

lemma account_onWritable (h : Handle) (w : Site κ × Echo) :
    account (onWritable h w).2 ≤ account w := by
  rw [onWritable]
  split
  · exact Nat.le_refl _
  · exact Nat.le_refl _
  · next bytes _ hl =>
    have hsend := unread_send w.1 h bytes
    have hleft : w.2.leftover h = bytes := by rw [leftover, hl, Option.getD_some]
    simp only [account]
    split
    · next t ht =>
      rw [ht] at hsend
      have howed := w.2.owed_keep h []
      rw [List.length_nil] at howed
      dsimp only at hsend
      show w.2.stats.bytesEchoed + (w.2.keep h []).owed + t.network.unread ≤ _
      omega
    · next n t ht =>
      rw [ht] at hsend
      simp only [Option.getD_some] at hsend
      have howed := (w.2.countEchoed n).owed_keep h (bytes.drop n)
      have hsame : (w.2.countEchoed n).owed = w.2.owed := rfl
      have hleft' : (w.2.countEchoed n).leftover h = bytes := hleft
      rw [List.length_drop, hleft'] at howed
      show w.2.stats.bytesEchoed + n + ((w.2.countEchoed n).keep h _).owed + t.network.unread ≤ _
      omega

lemma account_settle (self : κ) (h : Handle) (r : Option Interests × Site κ × Echo) :
    account (settle self h r) ≤ account r.2 := by
  obtain ⟨next, s, e⟩ := r
  cases next with
  | none => exact account_endSession h (s, e)
  | some want =>
    have hnet := s.network_arm h want (some self)
    rw [settle]
    dsimp only
    split <;> next t heq =>
      rw [heq] at hnet
      have hsame : account (t, e) = account (s, e) := by
        rw [account, account]
        exact congrArg (_ + Network.unread ·) hnet
      first
        | exact hsame.le
        | exact (account_endSession h _).trans hsame.le

lemma account_onOffer (self : κ) (w : Site κ × Echo) : account (onOffer self w) ≤ account w := by
  have haccept := w.1.network_accept
  rw [onOffer]
  split
  · next s heq =>
    rw [heq] at haccept
    exact Nat.add_le_add_left (congrArg Network.unread haccept).le _
  · next k s heq =>
    rw [heq] at haccept
    have harm := (s.note (.sessionStarted k)).network_arm k .read (some self)
    have hopen : ∀ t : Site κ, t.network = s.network → account (t, w.2.openSession k) ≤ account w := by
      intro t ht
      have howed := w.2.owed_openSession k
      have hunread : t.network.unread = w.1.network.unread := congrArg _ (ht.trans haccept)
      show w.2.stats.bytesEchoed + (w.2.openSession k).owed + t.network.unread ≤ _ + _ + _
      omega
    dsimp only
    split <;> next heq =>
      rw [heq] at harm
      first
        | exact hopen _ harm
        | exact (account_endSession k _).trans (hopen _ harm)

lemma account_consumer (self : κ) (n : Notice κ) (w : Site κ × Echo) :
    account (consumer self n w) ≤ account w := by
  cases n with
  | offer cb => exact account_onOffer self w
  | event cb h event =>
    cases event with
    | readable => exact (account_settle self h _).trans (account_onReadable h w)
    | writable => exact (account_settle self h _).trans (account_onWritable h w)

end Echo

namespace Daemon

variable {κ : Type}

open Echo

def incoming (d : Daemon κ) : Act κ → Nat
  | .network a => d.site.network.incoming a
  | .call _ | .attach | .turn => 0

/-- How many bytes the peers sent over connections that were open. -/
def received (self : κ) (d : Daemon κ) : List (Act κ) → Nat
  | [] => 0
  | a :: as => d.incoming a + (d.perform self a).2.received self as

/-- A service that is not attached yet has an empty account. -/
def account (d : Daemon κ) : Nat := Echo.account (d.site, d.echo.getD fresh)

lemma account_perform (self : κ) (d : Daemon κ) {a : Act κ} (ha : a.fair = true) :
    (d.perform self a).2.account ≤ d.account + d.incoming a := by
  have hnetwork : ∀ {s' : Site κ} (k : Nat) (e : Echo),
      s'.network.unread ≤ d.site.network.unread + k → d.echo.getD fresh = e →
      Echo.account (s', e) ≤ d.account + k := by
    intro s' k e hk he
    rw [account, he, Echo.account, Echo.account]
    dsimp only
    omega
  cases a with
  | network a => exact hnetwork _ _ (d.site.network.unread_perform ha) rfl
  | call c =>
    refine hnetwork 0 _ ?_ rfl
    cases c with
    | closeListener =>
      exact Network.unread_le fun c =>
        (Network.Conveys.of_get? fun q => Site.get?_of_closeListener).inboundLen_le
    | port | closeOutput h | state h | stats => exact Nat.le_refl _
    | openListener callback | accept | close h | arm h want callback | read h k | write h bytes => cases ha
  | attach =>
    obtain ⟨s, echo⟩ := d
    cases echo with
    | some e => exact Nat.le_refl _
    | none =>
      have hopen : (s.openListener self).2.network.unread ≤ s.network.unread :=
        Network.unread_le fun c => (Network.Conveys.of_eq (s.get?_openListener self c)).inboundLen_le
      simp only [perform, attach]
      rcases attach_cases self s with ⟨n, hattach⟩ | ⟨cause, hattach, -⟩ <;> rw [hattach] <;>
        exact hnetwork 0 _ hopen rfl
  | turn =>
    obtain ⟨s, echo⟩ := d
    cases echo with
    | some e =>
      exact Site.turn_spends (fun e => e.stats.bytesEchoed + e.owed)
        (fun n w => account_consumer self n w) (s, e)
    | none =>
      refine hnetwork 0 _ ?_ rfl
      have hidle := @Site.turn_spends κ Unit nobody (fun _ => 0) (fun _ _ => Nat.le_refl _) (s, ())
      rw [Nat.zero_add, Nat.zero_add] at hidle
      exact hidle

lemma account_run (self : κ) (d : Daemon κ) {acts : List (Act κ)} (ha : ∀ a ∈ acts, a.fair = true) :
    (d.run self acts).2.account ≤ d.account + d.received self acts := by
  induction acts generalizing d with
  | nil => exact Nat.le_refl _
  | cons a acts ih =>
    have hone := d.account_perform self (ha a List.mem_cons_self)
    have hrest := ih (d.perform self a).2 fun b hb => ha b (List.mem_cons_of_mem _ hb)
    simp only [run, received]
    omega

end Daemon

end BoundedStreams
