import BoundedStreams.Proofs.Clock
import Mathlib.Logic.Function.Basic

/-! The front of a manager: what the admission of connections, the offers and the evictions go by. A
call or a job either leaves the front alone or does one of a few things to it. -/

namespace BoundedStreams

structure Front (κ : Type) where
  options : Options
  listener : Option (Listener κ)
  backlog : Backlog
  stagger : Stagger
  active : Nat
  accepted : Nat
  rejected : Nat
  evicted : Nat
  /-- The socket and the last activity of each stream that has a socket. -/
  attached : Handle → Option (SocketId × Nat)

namespace Front

variable {κ : Type}

def shut (f : Front κ) : Front κ := { f with listener := none, backlog := [] }

def claim (f : Front κ) (h : Handle) (c : SocketId) (b : Backlog) (now : Nat) : Front κ :=
  { f with
    backlog := b
    active := f.active + 1
    attached := Function.update f.attached h (some (c, now)) }

def lose (f : Front κ) (h : Handle) (now : Nat) : Front κ :=
  { f with
    stagger := f.stagger.closed now
    active := f.active - 1
    attached := Function.update f.attached h none }

def touch (f : Front κ) (h : Handle) (c : SocketId) (now : Nat) : Front κ :=
  { f with attached := Function.update f.attached h (some (c, now)) }

def refuse (f : Front κ) : Front κ := { f with rejected := f.rejected + 1 }

def enqueue (f : Front κ) (c : SocketId) (now : Nat) : Front κ :=
  { f with backlog := f.backlog.push c now, accepted := f.accepted + 1 }

def evict (f : Front κ) (h : Handle) (now : Nat) : Front κ :=
  { f.lose h now with evicted := f.evicted + 1 }

def withdraw (f : Front κ) (c : SocketId) : Front κ := { f with backlog := f.backlog.withdraw c }

def offer (f : Front κ) (b : Backlog) (now : Nat) : Front κ :=
  { f with backlog := b, stagger := f.stagger.offered now }

/-- The attached stream idle for the longest time, if that is long enough; of several the one in the
lowest slot. -/
def Victim (f : Front κ) (now : Nat) (h : Handle) : Prop :=
  ∃ c t, f.attached h = some (c, t) ∧ f.options.minIdle ≤ now - t ∧
    ∀ g d u, f.attached g = some (d, u) → t < u ∨ t = u ∧ h.index ≤ g.index

def Listens (f : Front κ) (l : SocketId) : Prop := f.listener.map (·.socket) = some l

/-- Whether an offer is due. -/
def Due (f : Front κ) (now : Nat) : Prop :=
  f.listener.isSome = true ∧ f.stagger.mayOffer now = true ∧ f.backlog.hasUnoffered = true

end Front

namespace Stream

variable {κ : Type}

def attachment? (r : Stream κ) : Option (SocketId × Nat) := r.socket.map (·, r.lastActivity)

lemma attachment?_eq_none_iff (r : Stream κ) : r.attachment? = none ↔ r.socket = none := by
  simp [attachment?]

lemma attachment?_eq {r : Stream κ} {c : SocketId} (hc : r.socket = some c) :
    r.attachment? = some (c, r.lastActivity) := by
  rw [attachment?, hc, Option.map_some]

end Stream

namespace Arena

variable {κ : Type}

def attached (a : Arena (Stream κ)) (h : Handle) : Option (SocketId × Nat) :=
  (a.get? h).bind Stream.attachment?

lemma attached_eq {a : Arena (Stream κ)} {h : Handle} {r : Stream κ} (hr : a.get? h = some r) :
    a.attached h = r.attachment? := by
  rw [attached, hr, Option.bind_some]

lemma attached_eq_some_iff (a : Arena (Stream κ)) (h : Handle) (c : SocketId) (t : Nat) :
    a.attached h = some (c, t) ↔
      ∃ r, a.get? h = some r ∧ r.socket = some c ∧ r.lastActivity = t := by
  simp only [attached, Option.bind_eq_some_iff, Stream.attachment?, Option.map_eq_some_iff,
    Prod.mk.injEq]
  constructor
  · rintro ⟨r, hr, d, hd, rfl, rfl⟩
    exact ⟨r, hr, hd, rfl⟩
  · rintro ⟨r, hr, hd, rfl⟩
    exact ⟨r, hr, c, hd, rfl, rfl⟩

lemma attached_update {a : Arena (Stream κ)} {h : Handle} {r : Stream κ} (hr : a.get? h = some r)
    (f : Stream κ → Stream κ) :
    (a.update h f).attached = Function.update a.attached h (f r).attachment? := by
  funext k
  rw [attached, get?_update, Function.update_apply]
  by_cases hk : h = k
  · subst hk
    simp [hr]
  · rw [if_neg hk, if_neg (Ne.symm hk)]
    rfl

lemma attached_update_of_eq (a : Arena (Stream κ)) (h : Handle) {f : Stream κ → Stream κ}
    (hf : ∀ r, (f r).attachment? = r.attachment?) : (a.update h f).attached = a.attached := by
  cases hr : a.get? h with
  | none => simp only [update, hr]
  | some r => rw [attached_update hr, hf, ← attached_eq hr, Function.update_eq_self]

lemma attached_remove (a : Arena (Stream κ)) (h : Handle) :
    (a.remove h).attached = Function.update a.attached h none := by
  funext k
  rw [attached, get?_remove, Function.update_apply]
  by_cases hk : h = k
  · simp [hk]
  · rw [if_neg hk, if_neg (Ne.symm hk)]
    rfl

lemma attached_remove_of_none {a : Arena (Stream κ)} {h : Handle} (hn : a.attached h = none) :
    (a.remove h).attached = a.attached := by
  rw [attached_remove, ← hn, Function.update_eq_self]

lemma attached_insert {a : Arena (Stream κ)} (ha : a.Sound) (r : Stream κ) :
    (a.insert r).2.attached = Function.update a.attached (a.insert r).1 r.attachment? := by
  funext k
  rw [attached, get?_insert ha, Function.update_apply]
  by_cases hk : (a.insert r).1 = k
  · simp [hk]
  · rw [if_neg hk, if_neg (Ne.symm hk)]
    rfl

end Arena

namespace Manager

variable {κ : Type}

def front (m : Manager κ) : Front κ where
  options := m.options
  listener := m.listener
  backlog := m.backlog
  stagger := m.stagger
  active := m.active
  accepted := m.totals.accepted
  rejected := m.totals.rejected
  evicted := m.totals.evicted
  attached := m.streams.attached

lemma front_streams (m : Manager κ) {a : Arena (Stream κ)} (ha : a.attached = m.streams.attached) :
    ({ m with streams := a } : Manager κ).front = m.front := by
  simp only [front, ha]

lemma front_scheduleEnd (m : Manager κ) (h : Handle) : (m.scheduleEnd h).front = m.front := by
  rw [scheduleEnd]
  split <;> rfl

lemma front_updateStream (m : Manager κ) (h : Handle) {f : Stream κ → Stream κ}
    (hf : ∀ r, (f r).attachment? = r.attachment?) : (m.updateStream h f).front = m.front :=
  m.front_streams (m.streams.attached_update_of_eq h hf)

end Manager

namespace Candidate

lemma oldest?_first {cs : List Candidate} (hs : cs.Pairwise fun c d => c.stream.index < d.stream.index)
    {c : Candidate} (h : oldest? cs = some c) :
    ∀ d ∈ cs, c.lastActivity = d.lastActivity → c.stream.index ≤ d.stream.index := by
  induction cs generalizing c with
  | nil => simp
  | cons e cs ih =>
    obtain ⟨he, hcs⟩ := List.pairwise_cons.mp hs
    simp only [oldest?] at h
    intro d hd heq
    cases ho : oldest? cs with
    | none =>
      rw [ho] at h
      cases h
      rw [oldest?_eq_none_iff.mp ho, List.mem_singleton] at hd
      exact hd ▸ Nat.le_refl _
    | some o =>
      have hle := oldest?_le ho
      rw [ho] at h
      dsimp only at h
      split at h
      · cases h
        rcases List.mem_cons.mp hd with rfl | hd
        · exact Nat.le_refl _
        · exact Nat.le_of_lt (he d hd)
      · next hlt =>
        cases h
        rcases List.mem_cons.mp hd with rfl | hd
        · omega
        · exact ih hcs ho d hd heq

end Candidate

namespace Manager

variable {κ : Type}

lemma mem_candidates_iff_attached (m : Manager κ) (h : Handle) (t : Nat) :
    ⟨h, t⟩ ∈ m.candidates ↔ ∃ c, m.front.attached h = some (c, t) := by
  rw [Site.mem_candidates_iff]
  constructor
  · rintro ⟨r, hr, hs, ht⟩
    obtain ⟨c, hc⟩ := Option.isSome_iff_exists.mp hs
    exact ⟨c, (m.streams.attached_eq_some_iff h c t).mpr ⟨r, hr, hc, ht⟩⟩
  · rintro ⟨c, hc⟩
    obtain ⟨r, hr, hs, ht⟩ := (m.streams.attached_eq_some_iff h c t).mp hc
    exact ⟨r, hr, by simp [hs], ht⟩

lemma pairwise_candidates (m : Manager κ) :
    m.candidates.Pairwise fun c d => c.stream.index < d.stream.index := by
  apply List.Pairwise.filterMap _ _ (Arena.pairwise_listFrom 0 m.streams.slots)
  intro e f hlt c hc d hd
  obtain ⟨_, -, rfl⟩ := Option.map_eq_some_iff.mp hc
  obtain ⟨_, -, rfl⟩ := Option.map_eq_some_iff.mp hd
  exact hlt

lemma victim_of_victim? {m : Manager κ} {now : Nat} {v : Candidate}
    (hv : Candidate.victim? m.options.minIdle now m.candidates = some v) :
    m.front.Victim now v.stream := by
  obtain ⟨ho, hidle⟩ := Option.filter_eq_some_iff.mp hv
  obtain ⟨c, hc⟩ := (m.mem_candidates_iff_attached v.stream v.lastActivity).mp
    (Candidate.mem_of_oldest? ho)
  refine ⟨c, v.lastActivity, hc, of_decide_eq_true hidle, fun g d u hg => ?_⟩
  have hmem := (m.mem_candidates_iff_attached g u).mpr ⟨d, hg⟩
  have hle : v.lastActivity ≤ u := Candidate.oldest?_le ho _ hmem
  rcases Nat.lt_or_eq_of_le hle with hlt | heq
  · exact .inl hlt
  · exact .inr ⟨heq, Candidate.oldest?_first m.pairwise_candidates ho _ hmem heq⟩

lemma lt_of_victim?_eq_none {m : Manager κ} {now : Nat}
    (hv : Candidate.victim? m.options.minIdle now m.candidates = none) {h : Handle} {c : SocketId}
    {t : Nat} (hc : m.front.attached h = some (c, t)) : now - t < m.options.minIdle := by
  have hmem := (m.mem_candidates_iff_attached h t).mpr ⟨c, hc⟩
  cases ho : Candidate.oldest? m.candidates with
  | none =>
    rw [Candidate.oldest?_eq_none_iff.mp ho] at hmem
    cases hmem
  | some v =>
    have hle : v.lastActivity ≤ t := Candidate.oldest?_le ho _ hmem
    rw [Candidate.victim?, ho] at hv
    have hidle : ¬ m.options.minIdle ≤ now - v.lastActivity :=
      fun hle => Option.filter_eq_none_iff.mp hv v rfl (decide_eq_true hle)
    omega

end Manager

namespace Site

variable {κ : Type}

/-! ### Calls -/

lemma front_abort (s : Site κ) (c : SocketId) : (s.abort c).manager.front = s.manager.front := by
  rw [abort]
  split <;> rfl

lemma front_aborts (cs : List SocketId) (s : Site κ) :
    (cs.foldl abort s).manager.front = s.manager.front := by
  induction cs generalizing s with
  | nil => rfl
  | cons c cs ih => exact (ih (s.abort c)).trans (s.front_abort c)

lemma front_leave (s : Site κ) : s.leave.manager.front = s.manager.front := by
  rw [leave]
  dsimp only
  split <;> rfl

lemma front_openListener (s : Site κ) (callback : κ) :
    (s.openListener callback).2.manager.front = s.manager.front ∨
      s.manager.listener = none ∧ ∃ l, (s.openListener callback).2.manager.front =
        { s.manager.front with listener := some l } := by
  rw [openListener]
  dsimp only
  split
  · exact .inl rfl
  · next hl =>
    split
    · exact .inl rfl
    · next socket port network heq =>
      exact .inr ⟨by simpa using hl, ⟨socket, callback⟩, rfl⟩

lemma front_closeListener (s : Site κ) :
    s.manager.listener = none ∧ s.closeListener.manager.front = s.manager.front ∨
      s.manager.listener ≠ none ∧ s.closeListener.manager.front = s.manager.front.shut := by
  rw [closeListener]
  split
  · next hl => exact .inl ⟨hl, rfl⟩
  · next l hl => exact .inr ⟨by simp [hl], front_aborts s.manager.backlog.sockets _⟩

lemma front_accept {s : Site κ} (hs : s.manager.streams.Sound) :
    s.accept.1 = none ∧ s.accept.2.manager.front = s.manager.front ∨
      ∃ h p b, s.accept.1 = some h ∧ s.manager.backlog = p :: b ∧
        s.manager.front.attached h = none ∧
        s.accept.2.manager.front = s.manager.front.claim h p.socket b s.now := by
  rw [accept]
  dsimp only
  split
  · exact .inl ⟨rfl, rfl⟩
  · split
    · exact .inl ⟨rfl, rfl⟩
    · next p b hb =>
      have hb' : s.manager.backlog = p :: b := by
        cases h : s.manager.backlog with
        | nil => rw [h] at hb; cases hb
        | cons q c => rw [h] at hb; cases hb; rfl
      have hins := Arena.attached_insert hs (.claimed p.socket s.now)
      have hnone := Arena.get?_insert_self_eq_none hs (.claimed p.socket s.now)
      refine .inr ⟨_, p, b, rfl, hb', ?_, ?_⟩
      · show (s.manager.streams.get? _).bind _ = none
        rw [hnone]
        rfl
      · show Manager.front { s.manager with
          backlog := b
          streams := (s.manager.streams.insert (.claimed p.socket s.now)).2
          sockets := _
          active := s.manager.active + 1 } = _
        simp only [Manager.front, hins]
        rfl

lemma front_close (s : Site κ) (h : Handle) :
    s.manager.front.attached h = none ∧ (s.close h).manager.front = s.manager.front ∨
      ∃ c t, s.manager.front.attached h = some (c, t) ∧
        (s.close h).manager.front = s.manager.front.lose h s.now := by
  rw [close]
  dsimp only
  split
  · next hr => exact .inl ⟨by simp [Manager.front, Arena.attached, hr], rfl⟩
  · next r hr =>
    have hrec := Arena.attached_eq hr
    have hrem := s.manager.streams.attached_remove h
    split
    · next c hc =>
      rw [Stream.attachment?_eq hc] at hrec
      refine .inr ⟨c, r.lastActivity, hrec, ?_⟩
      refine (front_abort (s.put { s.manager with
        streams := s.manager.streams.remove h
        sockets := s.manager.sockets.erase c
        active := s.manager.active - 1
        stagger := s.manager.stagger.closed s.now }) c).trans ?_
      simp only [put, Manager.front, Front.lose, hrem]
    · next hc =>
      rw [(r.attachment?_eq_none_iff).mpr hc] at hrec
      refine .inl ⟨hrec, ?_⟩
      exact s.manager.front_streams (Arena.attached_remove_of_none hrec)

lemma front_arm (s : Site κ) (h : Handle) (want : Interests) (callback : Option κ) :
    (s.arm h want callback).2.manager.front = s.manager.front := by
  rw [arm]
  split
  · rfl
  · next r hr =>
    have hupd := s.manager.front_updateStream h (f := (·.arm want callback)) fun _ => rfl
    dsimp only
    split
    · exact hupd
    · next hc =>
      have hc' : r.socket = none := by simpa using hc
      split
      · rw [releaseOrphan]
        split
        · refine (Manager.front_streams _ (Arena.attached_remove_of_none ?_)).trans hupd
          have hatt := congrFun (congrArg Front.attached hupd) h
          refine hatt.trans ((Arena.attached_eq hr).trans ?_)
          exact (r.attachment?_eq_none_iff).mpr hc'
        · exact hupd
      · exact (Manager.front_scheduleEnd _ h).trans hupd

lemma front_read (s : Site κ) (h : Handle) (k : Nat) :
    (s.read h k).2.manager.front = s.manager.front ∧
        (∀ bytes, (s.read h k).1 = .ok bytes → s.manager.front.attached h = none) ∨
      ∃ bytes c t, (s.read h k).1 = .ok bytes ∧ s.manager.front.attached h = some (c, t) ∧
        (s.read h k).2.manager.front = s.manager.front.touch h c s.now := by
  rw [read]
  split
  · exact .inl ⟨rfl, by simp⟩
  · next r hr =>
    have hrec := Arena.attached_eq hr
    split
    · next hc =>
      rw [(r.attachment?_eq_none_iff).mpr hc] at hrec
      exact .inl ⟨rfl, fun _ _ => hrec⟩
    · next c hc =>
      rw [Stream.attachment?_eq hc] at hrec
      split
      · exact .inl ⟨rfl, by simp⟩
      · refine .inr ⟨_, c, r.lastActivity, rfl, hrec, ?_⟩
        have hupd := Arena.attached_update hr fun r => { r with lastActivity := s.now }
        have hc' : Stream.socket { r with lastActivity := s.now } = some c := hc
        rw [Stream.attachment?_eq hc'] at hupd
        simp only [Manager.front, Manager.updateStream, Front.touch, hupd]

lemma front_write (s : Site κ) (h : Handle) (bytes : Bytes) :
    (s.write h bytes).2.manager.front = s.manager.front := by
  rw [write]
  split
  · rfl
  · split
    · rfl
    · dsimp only
      split <;> rfl

lemma front_callout (s : Site κ) (n : Option (Notice κ)) :
    (n.elim s fun _ => s.enter).manager.front = s.manager.front := by
  cases n <;> rfl

/-! ### Jobs -/

lemma front_notify (s : Site κ) (h : Handle) (callback : κ) (e : StreamEvent) :
    (s.notify h callback e).1.manager.front = s.manager.front :=
  s.manager.front_updateStream h fun _ => rfl

lemma front_evaluate (s : Site κ) (h : Handle) :
    (s.evaluate h).1.manager.front = s.manager.front := by
  rw [evaluate]
  split
  · rfl
  · split
    · split
      · rfl
      · split
        · rfl
        · exact (front_notify _ h _ _).trans (s.manager.front_updateStream h fun _ => rfl)
    · rfl

lemma front_deliverEnd (s : Site κ) (h : Handle) :
    (s.deliverEnd h).1.manager.front = s.manager.front := by
  rw [deliverEnd]
  split
  · rfl
  · split
    · split
      · rfl
      · split
        · rfl
        · exact (front_notify _ h _ _).trans (s.manager.front_updateStream h fun _ => rfl)
    · rfl

lemma front_detach {s : Site κ} {h : Handle} {c : SocketId} {t : Nat}
    (hc : s.manager.front.attached h = some (c, t)) (abortive : Bool) :
    (s.detach h abortive).manager.front = s.manager.front.lose h s.now := by
  obtain ⟨r, hr, hsocket, -⟩ := (s.manager.streams.attached_eq_some_iff h c t).mp hc
  let s₁ : Site κ := s.put { s.manager.updateStream h fun r => { r with socket := none } with
    sockets := s.manager.sockets.erase c
    active := s.manager.active - 1
    stagger := s.manager.stagger.closed s.now }
  have hupd : (s.manager.streams.update h fun r => { r with socket := none }).attached =
      Function.update s.manager.streams.attached h none := Arena.attached_update hr _
  have h₁ : s₁.manager.front = s.manager.front.lose h s.now := by
    simp only [s₁, put, Manager.front, Manager.updateStream, Front.lose, hupd]
  have h₂ : (if abortive then s₁.abort c else s₁).manager.front = s₁.manager.front := by
    split
    · exact front_abort s₁ c
    · rfl
  rw [detach]
  simp only [hr, hsocket]
  rw [← h₁, ← h₂]
  cases r.interests.isEmpty with
  | true =>
    refine Manager.front_streams _ (Arena.attached_remove_of_none ?_)
    have hatt := congrFun (congrArg Front.attached (h₂.trans h₁)) h
    exact hatt.trans (Function.update_self _ _ _)
  | false => exact Manager.front_scheduleEnd _ h

lemma front_onClosed {s : Site κ} (c : SocketId) (hm : s.manager.Coherent) :
    s.manager.backlog.holds c = true ∧
        (s.onClosed c).manager.front = s.manager.front.withdraw c ∨
      s.manager.backlog.holds c = false ∧ (s.onClosed c).manager.front = s.manager.front ∨
      ∃ h t, s.manager.backlog.holds c = false ∧ s.manager.front.attached h = some (c, t) ∧
        (s.onClosed c).manager.front = s.manager.front.lose h s.now := by
  rw [onClosed]
  split
  · next hh => exact .inl ⟨hh, rfl⟩
  · next hh =>
    have hh' : s.manager.backlog.holds c = false := by simpa using hh
    split
    · next h hc =>
      obtain ⟨r, hr, hsocket⟩ := hm.record c h hc
      have hatt := (Arena.attached_eq hr).trans (Stream.attachment?_eq hsocket)
      exact .inr (.inr ⟨h, r.lastActivity, hh', hatt,
        front_detach (s := s.note (.peerClosed h c)) hatt false⟩)
    · exact .inr (.inl ⟨hh', rfl⟩)

/-- How a connection for the open listener is judged. -/
inductive Judged (f : Front κ) (now : Nat) : Except Refusal Unit → Front κ → Prop where
  | room (hp : f.backlog.length < f.options.maxPending)
      (hc : f.active + f.backlog.length < f.options.capacity) : Judged f now (.ok ()) f
  | full (reason : Refusal)
      (hv : f.active = f.options.capacity → 1 ≤ f.options.maxPending →
        ∀ h c t, f.attached h = some (c, t) → now - t < f.options.minIdle) :
      Judged f now (.error reason) f
  | evicted (h : Handle) (hc : f.active = f.options.capacity) (hb : f.backlog = [])
      (hp : 1 ≤ f.options.maxPending) (hv : f.Victim now h) : Judged f now (.ok ()) (f.evict h now)

lemma front_evict (s : Site κ) :
    s.evict.1 = false ∧ s.evict.2.manager.front = s.manager.front ∧
        (s.manager.options.capacity ≤ s.manager.active → ∀ h c t,
          s.manager.front.attached h = some (c, t) → s.now - t < s.manager.options.minIdle) ∨
      ∃ h, s.evict.1 = true ∧ s.manager.options.capacity ≤ s.manager.active ∧
        s.manager.front.Victim s.now h ∧ s.evict.2.manager.front = s.manager.front.evict h s.now := by
  rw [evict]
  dsimp only
  split
  · next hroom => exact .inl ⟨rfl, rfl, fun hfull => absurd hroom (Nat.not_lt.mpr hfull)⟩
  · next hfull =>
    split
    · next hv => exact .inl ⟨rfl, rfl, fun _ h c t hc => Manager.lt_of_victim?_eq_none hv hc⟩
    · next v hv =>
      have hvictim := Manager.victim_of_victim? hv
      have hc := hvictim
      obtain ⟨c, t, hc, -, -⟩ := hc
      let s₁ := ((s.note (.evicted v.stream (v.idleTime s.now))).put { s.manager with
        totals := { s.manager.totals with evicted := s.manager.totals.evicted + 1 } }).count
          (·.countEvicted)
      exact .inr ⟨v.stream, rfl, Nat.not_lt.mp hfull, hvictim, front_detach (s := s₁) hc true⟩

lemma judged {s : Site κ} (hm : s.manager.Coherent) (hw : s.manager.Within) :
    Judged s.manager.front s.now s.judge.1 s.judge.2.manager.front := by
  have hload := hw.load
  have hpending := hw.pending
  rw [judge]
  split
  · next capacity active pending hadm =>
    have hlt : s.manager.backlog.length < s.manager.options.maxPending := by
      rw [Manager.admission, admission] at hadm
      split at hadm
      · cases hadm
      · next h => exact Nat.not_le.mp h
    rcases s.front_evict with ⟨hno, hf, hidle⟩ | ⟨h, hyes, hfull, hv, hf⟩
    · generalize s.evict = e at hno hf
      obtain ⟨b, s₁⟩ := e
      dsimp only at hno hf
      subst hno
      dsimp only
      rw [hf]
      refine .full _ fun hc hp h c t hatt => hidle (Nat.le_of_eq hc.symm) h c t hatt
    · generalize s.evict = e at hyes hf
      obtain ⟨b, s₁⟩ := e
      dsimp only at hyes hf
      subst hyes
      dsimp only
      have hempty : s.manager.backlog = [] := List.eq_nil_of_length_eq_zero (by omega)
      -- Somebody was active, so the eviction leaves a slot.
      have hatt := hv
      obtain ⟨c, t, hatt, -, -⟩ := hatt
      obtain ⟨r, hr, hsocket, -⟩ := (s.manager.streams.attached_eq_some_iff h c t).mp hatt
      have hpos := hm.active_pos hr hsocket
      have hok : s₁.manager.admission = .ok () := by
        have hadm' : s₁.manager.admission = admission s₁.manager.front.options.capacity
          s₁.manager.front.active s₁.manager.front.backlog.length
          s₁.manager.front.options.maxPending := rfl
        rw [hadm', admission_eq_ok_iff, hf]
        simp only [Front.evict, Front.lose, Manager.front]
        omega
      rw [hok, hf]
      exact .evicted h (by simp only [Manager.front]; omega) hempty
        (by simp only [Manager.front]; omega) hv
  · next hother =>
    cases hadm : s.manager.admission with
    | ok u =>
      obtain ⟨hp, hc⟩ := admission_eq_ok_iff.mp hadm
      exact .room hp hc
    | error reason =>
      refine .full reason fun hc hp h c t hatt => ?_
      -- Without capacity the backlog is empty, and so it is not the backlog that is full.
      exfalso
      have hwhy := hadm
      rw [Manager.admission, admission] at hwhy
      simp only [Manager.front] at hc hp
      split at hwhy
      · omega
      · split at hwhy
        · cases hwhy
          exact hother _ _ _ hadm
        · cases hwhy

lemma now_judge (s : Site κ) : s.judge.2.now = s.now := by
  rcases s.judge_snd with h | h
  · rw [h]
    exact s.sheds_evict.clock
  · rw [h]

/-- What a connection for the open listener brings about. -/
inductive Received (f : Front κ) (c : SocketId) (now : Nat) : Front κ → Prop where
  | refused (hv : f.active = f.options.capacity → 1 ≤ f.options.maxPending →
      ∀ h d t, f.attached h = some (d, t) → now - t < f.options.minIdle) : Received f c now f.refuse
  | admitted (hp : f.backlog.length < f.options.maxPending)
      (hc : f.active + f.backlog.length < f.options.capacity) : Received f c now (f.enqueue c now)
  | evicted (h : Handle) (hc : f.active = f.options.capacity) (hb : f.backlog = [])
      (hp : 1 ≤ f.options.maxPending) (hv : f.Victim now h) :
      Received f c now ((f.evict h now).enqueue c now)

lemma received {s : Site κ} (hm : s.manager.Coherent) (hw : s.manager.Within) (c : SocketId)
    {l : SocketId} (hl : s.manager.front.Listens l) :
    Received s.manager.front c s.now (s.onAccepted c l).manager.front := by
  have hj := judged hm hw
  have hnow := s.now_judge
  have hl' : s.manager.listener.map (·.socket) = some l := hl
  rw [onAccepted, if_neg (not_not_intro hl')]
  generalize s.judge = e at hj hnow
  obtain ⟨verdict, s₁⟩ := e
  dsimp only at hj hnow
  cases verdict with
  | ok u =>
    have hadmit : Manager.front { s₁.manager with
        backlog := s₁.manager.backlog.push c s₁.now
        totals := { s₁.manager.totals with accepted := s₁.manager.totals.accepted + 1 } } =
          s₁.manager.front.enqueue c s.now := by
      rw [hnow]
      rfl
    show Received _ c s.now (Manager.front _)
    refine (congrArg (Received s.manager.front c s.now) hadmit).mpr ?_
    generalize s₁.manager.front = f₁ at hj
    cases hj with
    | room hp hc => exact .admitted hp hc
    | evicted h hc hb hp hv => exact .evicted h hc hb hp hv
  | error reason =>
    let s₂ := ((s₁.put { s₁.manager with totals :=
      { s₁.manager.totals with rejected := s₁.manager.totals.rejected + 1 } }).count
        (·.countRefused reason)).note (.refused c reason)
    have hrefuse : (s₂.abort c).manager.front = s₁.manager.front.refuse := front_abort s₂ c
    refine (congrArg (Received s.manager.front c s.now) hrefuse).mpr ?_
    generalize s₁.manager.front = f₁ at hj
    cases hj with
    | full reason hv => exact .refused hv

lemma front_late (s : Site κ) (c : SocketId) {l : SocketId} (hl : ¬ s.manager.front.Listens l) :
    (s.onAccepted c l).manager.front = s.manager.front := by
  have hl' : s.manager.listener.map (·.socket) ≠ some l := hl
  rw [onAccepted, if_pos hl']
  exact front_abort _ c

lemma front_offerPending (s : Site κ) :
    s.offerPending.2 = none ∧ s.offerPending.1.manager.front = s.manager.front ∧
        ¬ s.manager.front.Due s.now ∨
      ∃ l p b, s.manager.listener = some l ∧ s.manager.stagger.mayOffer s.now = true ∧
        s.manager.backlog.offer = some (p, b) ∧ s.offerPending.2 = some (.offer l.callback) ∧
        s.offerPending.1.manager.front = s.manager.front.offer b s.now := by
  rw [offerPending]
  dsimp only
  split
  · next hl => exact .inl ⟨rfl, rfl, fun hdue => by simpa [Manager.front, hl] using hdue.1⟩
  · next l hl =>
    split
    · next hmay =>
      split
      · next hb =>
        refine .inl ⟨rfl, rfl, fun hdue => ?_⟩
        have hsome := (Backlog.isSome_offer _).trans hdue.2.2
        simp [Manager.front, hb] at hsome
      · next p b hb => exact .inr ⟨l, p, b, hl, hmay, hb, rfl, rfl⟩
    · next hmay => exact .inl ⟨rfl, rfl, fun hdue => hmay hdue.2.1⟩

lemma evaluate_ne_offer (s : Site κ) (h : Handle) (cb : κ) : (s.evaluate h).2 ≠ some (.offer cb) := by
  rw [evaluate]
  split
  · simp
  · split
    · split
      · simp
      · split <;> simp [notify]
    · simp

lemma deliverEnd_ne_offer (s : Site κ) (h : Handle) (cb : κ) :
    (s.deliverEnd h).2 ≠ some (.offer cb) := by
  rw [deliverEnd]
  split
  · simp
  · split
    · split
      · simp
      · split <;> simp [notify]
    · simp

end Site

end BoundedStreams
