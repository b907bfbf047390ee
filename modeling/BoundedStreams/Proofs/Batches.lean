import BoundedStreams.Proofs.Evictions
import BoundedStreams.Proofs.Incarnations
import BoundedStreams.Proofs.Leaks

/-! A turn that begins with a batch of new connections. The limits leave room for some of them, or an
eviction lets one in; what comes after that is refused. -/

namespace BoundedStreams

namespace Front

variable {κ : Type}

/-- How many connections the limits leave room for. -/
def room (f : Front κ) : Nat :=
  min (f.options.capacity - f.active - f.backlog.length) (f.options.maxPending - f.backlog.length)

/-- The eviction of the stream under `h` is what lets a connection in. -/
structure Contested (f : Front κ) (now : Nat) (h : Handle) : Prop where
  full : f.active = f.options.capacity
  pending : 1 ≤ f.options.maxPending
  victim : f.Victim now h

lemma room_enqueue (f : Front κ) (c : SocketId) (now : Nat) :
    (f.enqueue c now).room = f.room - 1 := by
  simp only [room, enqueue, Backlog.push, List.length_append, List.length_singleton]
  omega

lemma not_contested_of_lt {f : Front κ} (h : f.active < f.options.capacity) (now : Nat) (g : Handle) :
    ¬ f.Contested now g :=
  fun hc => Nat.ne_of_lt h hc.full

lemma not_contested_of_room {f : Front κ} (h : 0 < f.room) (now : Nat) (g : Handle) :
    ¬ f.Contested now g := by
  rw [room] at h
  exact not_contested_of_lt (by omega) now g

/-- What becomes of a connection for the open listener. -/
inductive Ruling (f : Front κ) (c : SocketId) (now : Nat) : Front κ → Prop where
  | admitted (hroom : 0 < f.room) : Ruling f c now (f.enqueue c now)
  | refused (hroom : f.room = 0) (hno : ∀ h, ¬ f.Contested now h) : Ruling f c now f.refuse
  | evicted (h : Handle) (hc : f.Contested now h) (hb : f.backlog = []) :
      Ruling f c now ((f.evict h now).enqueue c now)

end Front

lemma Manager.victim_unique {κ : Type} {m : Manager κ} {now : Nat} {h g : Handle}
    (hh : m.front.Victim now h) (hg : m.front.Victim now g) : h = g := by
  obtain ⟨c, t, hc, -, hleast⟩ := hh
  obtain ⟨d, u, hd, -, hleast'⟩ := hg
  have hle := hleast g d u hd
  have hle' := hleast' h c t hc
  have hindex : h.index = g.index := by omega
  obtain ⟨r, hr, -⟩ := (m.streams.attached_eq_some_iff h c t).mp hc
  obtain ⟨q, hq, -⟩ := (m.streams.attached_eq_some_iff g d u).mp hd
  have hgeneration : h.generation = g.generation := by
    rw [← Arena.generation_of_get? hr, ← Arena.generation_of_get? hq, hindex]
  cases h
  cases g
  cases hindex
  cases hgeneration
  rfl

namespace Site

variable {κ : Type} {s : Site κ} {c l : SocketId}

lemma onAccepted_of_room (c : SocketId) (hl : s.manager.front.Listens l)
    (hroom : 0 < s.manager.front.room) :
    (s.onAccepted c l).manager.front = s.manager.front.enqueue c s.now := by
  have hl' : s.manager.listener.map (·.socket) = some l := hl
  have hadmission : s.manager.admission = .ok () := by
    simp only [Front.room, Manager.front] at hroom
    exact admission_eq_ok_iff.mpr ⟨by omega, by omega⟩
  have hjudge : s.judge = (.ok (), s) := by
    rw [judge, hadmission]
  rw [onAccepted, if_neg (not_not_intro hl'), hjudge]
  rfl

lemma ruling (hm : s.manager.Coherent) (hw : s.manager.Within) (c : SocketId)
    (hl : s.manager.front.Listens l) :
    s.manager.front.Ruling c s.now (s.onAccepted c l).manager.front := by
  by_cases hroom : 0 < s.manager.front.room
  · rw [onAccepted_of_room c hl hroom]
    exact .admitted hroom
  · have hreceived := received hm hw c hl
    generalize (s.onAccepted c l).manager.front = f' at hreceived
    cases hreceived with
    | refused hv =>
      refine .refused (Nat.eq_zero_of_not_pos hroom) fun h hcontested => ?_
      obtain ⟨hfull, hpending, d, t, hd, hidle, -⟩ := hcontested
      have hlt := hv hfull hpending h d t hd
      omega
    | admitted hp hc =>
      refine absurd ?_ hroom
      rw [Front.room]
      omega
    | evicted h hc hb hp hv => exact .evicted h ⟨hc, hp, hv⟩ hb

end Site

namespace Network

/-- A connection whose end was reported or is queued was closed. -/
lemma wasClosed_of_heard (as : List Action) {c : SocketId}
    (hc : ⟨c, .closed⟩ ∈ heard (initial.log as) (initial.after as)) :
    (initial.after as).wasClosed c = true := by
  refine after_invariant (P := fun past n => ∀ c, ⟨c, .closed⟩ ∈ heard past n → n.wasClosed c = true)
    (fun past n a hold c hmem => ?_) as [] (fun _ hmem => absurd hmem List.not_mem_nil) c hc
  obtain ⟨news, hheard, heff⟩ := heard_perform past n a
  rw [hheard, List.mem_append] at hmem
  rcases hmem with hmem | hmem
  · exact (n.wasClosed_perform a c).mpr (.inl (hold c hmem))
  · have hk := mem_kindsOf_iff.mpr hmem
    cases heff c with
    | passed hpass ho => exact absurd (hpass _ hk).1 nofun
    | arrived p l hl hs hn hk' ho =>
      rw [hk', List.mem_singleton] at hk
      cases hk
    | ended ha hk' ho ho' => exact (n.wasClosed_perform a c).mpr (.inr ⟨ho, ha⟩)

end Network

namespace Stride

variable {κ : Type}

/-- The connections that came in and were not admitted. -/
def rejected (x : Stride κ) (i : Nat) : List SocketId :=
  (x.arrived i).filter (· ∉ x.admitted i)

end Stride

namespace Moment

variable {κ : Type} {w w' : Moment κ} {i : Nat} {m m' : Manager κ} {mv : Move κ} {o : Outcome κ}

def rejections (i : Nat) (tr : List (Stride κ)) : List SocketId := tr.flatMap (·.rejected i)

/-- The totals of `m'` are those of `m` after so many admissions, refusals and evictions. -/
structure Tallied (m m' : Manager κ) (admitted rejected evicted : Nat) : Prop where
  accepted : m'.totals.accepted = m.totals.accepted + admitted
  rejected : m'.totals.rejected = m.totals.rejected + rejected
  evicted : m'.totals.evicted = m.totals.evicted + evicted

/-- In a trace from `w` to `w'`, the connections `cs` came in for manager `i`, of which it admitted `adm`
and refused `rej`, and it evicted the victims and no other stream. -/
structure Dealt (w : Moment κ) (i : Nat) (tr : List (Stride κ)) (w' : Moment κ)
    (cs adm rej : List SocketId) (victims : List Handle) : Prop where
  arrivals : arrivals i tr = cs
  admitted : (turnover i tr).admitted = adm
  rejected : rejections i tr = rej
  evicted : ∀ h, (∃ x ∈ tr, x.Evicts i h) ↔ h ∈ victims
  tally : ∀ m', w'.manager? i = some m' → ∃ m, w.manager? i = some m ∧
    Tallied m m' adm.length rej.length victims.length

lemma Tallied.trans {m₁ m₂ m₃ : Manager κ} {a a' r r' e e' : Nat} (h : Tallied m₁ m₂ a r e)
    (h' : Tallied m₂ m₃ a' r' e') : Tallied m₁ m₃ (a + a') (r + r') (e + e') :=
  ⟨by rw [h'.accepted, h.accepted, Nat.add_assoc], by rw [h'.rejected, h.rejected, Nat.add_assoc],
    by rw [h'.evicted, h.evicted, Nat.add_assoc]⟩

lemma dealt_nil (w : Moment κ) (i : Nat) : Dealt w i [] w [] [] [] [] :=
  ⟨rfl, rfl, rfl, by simp, fun m hm => ⟨m, hm, rfl, rfl, rfl⟩⟩

lemma Dealt.cons {w₁ : Moment κ} {tr : List (Stride κ)} {cs cs' adm adm' rej rej' : List SocketId}
    {victims victims' : List Handle} (h : Dealt w i [⟨w, mv, o, w₁⟩] w₁ cs adm rej victims)
    (h' : Dealt w₁ i tr w' cs' adm' rej' victims') :
    Dealt w i (⟨w, mv, o, w₁⟩ :: tr) w' (cs ++ cs') (adm ++ adm') (rej ++ rej')
      (victims ++ victims') := by
  have happend : (⟨w, mv, o, w₁⟩ : Stride κ) :: tr = [⟨w, mv, o, w₁⟩] ++ tr := rfl
  refine ⟨?_, ?_, ?_, fun g => ?_, fun m' hm' => ?_⟩
  · rw [happend, Moment.arrivals, List.flatMap_append, ← h.arrivals, ← h'.arrivals]
    rfl
  · rw [happend, turnover, List.map_append, ← h.admitted, ← h'.admitted]
    exact List.flatMap_append
  · rw [happend, rejections, List.flatMap_append, ← h.rejected, ← h'.rejected]
    rfl
  · rw [happend, List.mem_append, ← h.evicted g, ← h'.evicted g]
    simp only [List.mem_append, or_and_right, exists_or]
  · obtain ⟨m₁, hm₁, htally'⟩ := h'.tally m' hm'
    obtain ⟨m, hm, htally⟩ := h.tally m₁ hm₁
    rw [List.length_append, List.length_append, List.length_append]
    exact ⟨m, hm, htally.trans htally'⟩

/-! ### Steps that no connection comes in with -/

lemma Service.tallied (hserve : Service w i m.front mv o m'.front)
    (hno : ∀ c l, w.event? i ≠ some ⟨c, .accepted l⟩) : Tallied m m' 0 0 0 := by
  generalize hf : m'.front = f' at hserve
  have hsame : f'.accepted = m.totals.accepted → f'.rejected = m.totals.rejected →
      f'.evicted = m.totals.evicted → Tallied m m' 0 0 0 := fun ha hr he =>
    ⟨(congrArg Front.accepted hf).trans ha, (congrArg Front.rejected hf).trans hr,
      (congrArg Front.evicted hf).trans he⟩
  cases hserve with
  | arrived c l es hj hl f' hf' => exact absurd (event?_eq_some_iff.mpr ⟨es, hj⟩) (hno c l)
  | idle | opened | shut | claimed | closed | read | withdrawn | lost | offered =>
    exact hsame rfl rfl rfl

lemma Reaches.shut {ports : PortSource} (hreach : (initial ports).Reaches w) :
    ∀ m, w.manager? i = some m → m.listener = none → m.backlog = [] := by
  obtain ⟨mvs, es, hr⟩ := hreach
  exact (audited_run hr i).shut

lemma rejected_eq_nil {x : Stride κ} (h : x.arrived i = []) : x.rejected i = [] := by
  rw [Stride.rejected, h]
  rfl

/-- Without a connection that comes in, nothing is decided. -/
lemma dealt_calm {ports : PortSource} (hreach : (initial ports).Reaches w)
    (hlt : i < w.managers.length) (h : Step w mv o w')
    (hno : ∀ c l, w.event? i ≠ some ⟨c, .accepted l⟩) :
    Dealt w i [⟨w, mv, o, w'⟩] w' [] [] [] [] := by
  have harr : Stride.arrived ⟨w, mv, o, w'⟩ i = [] :=
    Stride.arrived_eq_nil fun c l es hj _ => hno c l (event?_eq_some_iff.mpr ⟨es, hj⟩)
  have hserves := hreach.serves h i
  have hposts := hserves.posts h hreach.orderly hreach.shut
  have hadm : Stride.admitted ⟨w, mv, o, w'⟩ i = [] := by
    have hfresh := hposts.fresh
    rw [harr] at hfresh
    exact List.eq_nil_of_subset_nil hfresh
  refine ⟨?_, ?_, ?_, fun g => ?_, fun m' hm' => ?_⟩
  · rw [arrivals, List.flatMap_singleton, harr]
  · exact (List.flatMap_singleton _ _).trans hadm
  · rw [rejections, List.flatMap_singleton, rejected_eq_nil harr]
  · refine iff_of_false ?_ List.not_mem_nil
    rintro ⟨x, hx, ⟨c, l, he⟩, -⟩
    obtain rfl := List.mem_singleton.mp hx
    exact hno c l he
  · cases hserves with
    | away mv o hm hnone ho hc | gone m hm hnone => cases hnone.symm.trans hm'
    | born p hi hm => omega
    | serves mv o m m₁ hm hm₁ hs hr =>
      cases hm₁.symm.trans hm'
      exact ⟨m, hm, hs.tallied hno⟩

/-- A batch without new connections stays so until the turn is over. -/
lemma dealt_rest {ports : PortSource} (hreach : (initial ports).Reaches w)
    (hlt : i < w.managers.length) (hcalm : ∀ a, w.agenda? i = some a → awaiting a.batch = [])
    {mvs : List (Move κ)} {es : History κ} (hrun : w.run mvs = some (es, w')) (hone : .begin i ∉ mvs) :
    Dealt w i (w.trace mvs) w' [] [] [] [] := by
  induction mvs generalizing w es with
  | nil =>
    cases hrun
    exact dealt_nil _ i
  | cons mv mvs ih =>
    obtain ⟨o, w₁, es', hs, hrun', rfl⟩ := run_cons hrun
    simp only [List.mem_cons, not_or] at hone
    have h := step_cases hs
    have hno : ∀ c l, w.event? i ≠ some ⟨c, .accepted l⟩ := by
      intro c l he
      obtain ⟨es, hj⟩ := event?_eq_some_iff.mp he
      have hnone := hcalm _ (agenda?_of_job? hj)
      cases hnone
    have hcalm' : ∀ a, w₁.agenda? i = some a → awaiting a.batch = [] := by
      intro a ha
      cases h.view hreach.orderly i with
      | apart mv o hm hsame hn hc hb hr => exact hcalm a (hsame ▸ ha)
      | born p hi hm hnone | gone hm hnone' hnone => cases hnone.symm.trans ha
      | begin s hsite hsite' hnone hnew => exact absurd rfl hone.1
      | call c s hsite hsite' hsame | leave s hsite hsite' hsame => exact hcalm a (hsame ▸ ha)
      | job b s hsite hb hsite' hb' =>
        have hold := hcalm b hb
        rw [hb'] at ha
        rcases b with (_ | ⟨e, es⟩) | (_ | ⟨g, gs⟩) | _
        all_goals cases ha
        · rfl
        · rw [Agenda.batch, ← List.singleton_append, awaiting_append] at hold
          exact (List.append_eq_nil_iff.mp hold).2
        · rfl
        · rfl
    have hfirst := dealt_calm hreach hlt h hno
    have hrest := ih (hreach.trans (.step mv o hs)) (Nat.lt_of_lt_of_le hlt h.length_le) hcalm' hrun'
      hone.2
    rw [trace_cons hs]
    exact hfirst.cons hrest

/-! ### Connections that come in -/

variable {ports : PortSource} {c l : SocketId} {batch : List SocketEvent}

lemma accepted_step (hm : w.manager? i = some m)
    (hj : w.job? i = some (.events (⟨c, .accepted l⟩ :: batch))) :
    ∃ w', w.step .proceed = some (.done, w') ∧ w'.job? i = some (.events batch) ∧
      w'.site? i = some (Site.onAccepted ⟨w.network, m, w.journal⟩ c l) := by
  obtain ⟨fs, hf⟩ := job?_eq_some_iff.mp hj
  have hs : w.site? i = some ⟨w.network, m, w.journal⟩ :=
    (w.site?_eq_some_iff i _).mpr ⟨hm, rfl, rfl⟩
  exact ⟨w.during i (Site.onAccepted ⟨w.network, m, w.journal⟩ c l) (⟨i, .events batch, none⟩ :: fs),
    step_proceed hf hs, job?_eq_some_iff.mpr ⟨fs, rfl⟩, site?_put hs _⟩

lemma Reaches.ruled (hreach : (initial ports).Reaches w) (hm : w.manager? i = some m)
    (hl : w.listening? i = some l) (hj : w.job? i = some (.events (⟨c, .accepted l⟩ :: batch))) :
    ∃ w' m', w.step .proceed = some (.done, w') ∧ w'.manager? i = some m' ∧
      w'.listening? i = some l ∧ w'.job? i = some (.events batch) ∧
      w'.network.clock = w.network.clock ∧ m.front.Ruling c w.network.clock m'.front := by
  obtain ⟨w', hstep, hj', hs'⟩ := accepted_step hm hj
  obtain ⟨hm', hnet', -⟩ := (w'.site?_eq_some_iff i _).mp hs'
  have hlisten := (listening?_eq_some_iff hm l).mp hl
  have hruling := Site.ruling (s := ⟨w.network, m, w.journal⟩) (hreach.orderly.coherent i m hm)
    (hreach.within hm) c hlisten
  refine ⟨w', _, hstep, hm', (listening?_eq_some_iff hm' l).mpr ?_, hj', ?_, hruling⟩
  · generalize (Site.onAccepted _ c l).manager.front = f' at hruling
    cases hruling <;> exact hlisten
  · rw [hnet']
    exact (Site.sheds_onAccepted ⟨w.network, m, w.journal⟩ c l).clock

/-- A connection that comes in is admitted or refused, as the totals tell. -/
lemma dealt_arrival (hreach : (initial ports).Reaches w) (h : Step w .proceed .done w')
    (hm : w.manager? i = some m) (hm' : w'.manager? i = some m') (hl : w.listening? i = some l)
    (hj : w.job? i = some (.events (⟨c, .accepted l⟩ :: batch))) {adm rej : List SocketId}
    {victims : List Handle} (hone : adm = [c] ∧ rej = [] ∨ adm = [] ∧ rej = [c])
    (htally : Tallied m m' adm.length rej.length victims.length)
    (hevicts : ∀ g, Stride.Evicts ⟨w, .proceed, .done, w'⟩ i g ↔ g ∈ victims) :
    Dealt w i [⟨w, .proceed, .done, w'⟩] w' [c] adm rej victims := by
  have hw := hreach.orderly
  have harr : Stride.arrived ⟨w, .proceed, .done, w'⟩ i = [c] := Stride.arrived_eq hj hl
  have hbooked := (h.service hw hm (hreach.within hm) hm').booked h hw hm hm' nofun (hreach.shut m hm)
  have hlen : (Stride.admitted ⟨w, .proceed, .done, w'⟩ i).length = adm.length :=
    Nat.add_left_cancel (hbooked.accepted.symm.trans htally.accepted)
  have hadm : Stride.admitted ⟨w, .proceed, .done, w'⟩ i = adm := by
    have hfresh := hbooked.fresh
    rw [harr] at hfresh
    rcases hone with ⟨rfl, -⟩ | ⟨rfl, -⟩
    · obtain ⟨d, hd⟩ := List.length_eq_one_iff.mp hlen
      rw [hd, List.cons_subset, List.mem_singleton] at hfresh
      rw [hd, hfresh.1]
    · exact List.eq_nil_of_length_eq_zero hlen
  refine ⟨?_, ?_, ?_, fun g => ?_, fun m₁ hm₁ => ?_⟩
  · rw [arrivals, List.flatMap_singleton, harr]
  · exact (List.flatMap_singleton _ _).trans hadm
  · rw [rejections, List.flatMap_singleton, Stride.rejected, harr, hadm]
    rcases hone with ⟨rfl, rfl⟩ | ⟨rfl, rfl⟩ <;> simp
  · rw [← hevicts g]
    simp
  · cases hm'.symm.trans hm₁
    exact ⟨m, hm, htally⟩

/-- The step that deals with the first connection of a batch. -/
lemma Step.dealt (hreach : (initial ports).Reaches w) (h : Step w .proceed .done w')
    (hm : w.manager? i = some m) (hm' : w'.manager? i = some m') (hl : w.listening? i = some l)
    (hj : w.job? i = some (.events (⟨c, .accepted l⟩ :: batch)))
    (hr : m.front.Ruling c w.network.clock m'.front) :
    (0 < m.front.room ∧ m'.front = m.front.enqueue c w.network.clock ∧
        Dealt w i [⟨w, .proceed, .done, w'⟩] w' [c] [c] [] []) ∨
      (m.front.room = 0 ∧ (∀ g, ¬ m.front.Contested w.network.clock g) ∧ m'.front = m.front.refuse ∧
        Dealt w i [⟨w, .proceed, .done, w'⟩] w' [c] [] [c] []) ∨
      ∃ g, m.front.Contested w.network.clock g ∧ m'.front.room = 0 ∧
        m'.front.active < m'.front.options.capacity ∧
        Dealt w i [⟨w, .proceed, .done, w'⟩] w' [c] [c] [] [g] := by
  generalize hf : m'.front = f' at hr
  have hspared : f'.attached = m.front.attached →
      ∀ g, Stride.Evicts ⟨w, .proceed, .done, w'⟩ i g ↔ g ∈ [] := fun hsame g =>
    iff_of_false (not_evicts hm hm' ((congrArg Front.attached hf).trans hsame) g) List.not_mem_nil
  have htally : ∀ a r e, f'.accepted = m.front.accepted + a → f'.rejected = m.front.rejected + r →
      f'.evicted = m.front.evicted + e → Tallied m m' a r e := fun a r e ha hr he =>
    ⟨(congrArg Front.accepted hf).trans ha, (congrArg Front.rejected hf).trans hr,
      (congrArg Front.evicted hf).trans he⟩
  cases hr with
  | admitted hroom =>
    exact .inl ⟨hroom, rfl, dealt_arrival hreach h hm hm' hl hj (.inl ⟨rfl, rfl⟩)
      (htally 1 0 0 rfl rfl rfl) (hspared rfl)⟩
  | refused hroom hno =>
    exact .inr (.inl ⟨hroom, hno, rfl, dealt_arrival hreach h hm hm' hl hj (.inr ⟨rfl, rfl⟩)
      (htally 0 1 0 rfl rfl rfl) (hspared rfl)⟩)
  | evicted g hc hb =>
    obtain ⟨d, t, hg, -⟩ := id hc.victim
    obtain ⟨r, hr, hsocket, -⟩ := (m.streams.attached_eq_some_iff g d t).mp hg
    have hpos := (hreach.orderly.coherent i m hm).active_pos hr hsocket
    have hfull : m.active = m.options.capacity := hc.full
    have hempty : m.backlog = [] := hb
    have hevicts : ∀ k, Stride.Evicts ⟨w, .proceed, .done, w'⟩ i k ↔ k = g :=
      evicts_iff hm hm' (event?_eq_some_iff.mpr ⟨batch, hj⟩) hg (congrArg Front.attached hf)
    refine .inr (.inr ⟨g, hc, ?_, ?_, dealt_arrival hreach h hm hm' hl hj (.inl ⟨rfl, rfl⟩)
      (htally 1 0 1 rfl rfl rfl) fun k => ?_⟩)
    · simp only [Front.room, Front.enqueue, Front.evict, Front.lose, Manager.front, hempty,
        Backlog.push, List.nil_append, List.length_singleton]
      omega
    · simp only [Front.enqueue, Front.evict, Front.lose, Manager.front]
      omega
    · rw [hevicts k, List.mem_singleton]

lemma inTurn_of_job? {a : Agenda} (hj : w.job? i = some a) : w.inTurn i = true := by
  rw [inTurn_eq_isSome, agenda?_of_job? hj]
  rfl

/-- While a batch lasts, no step is possible but the one that deals with its first connection. -/
lemma run_of_job? {a : Agenda} {w₁ : Moment κ} (hj : w.job? i = some a)
    (hstep : w.step .proceed = some (.done, w₁)) {mvs : List (Move κ)} {es : History κ}
    (hrun : w.run mvs = some (es, w')) (hend : w'.inTurn i = false) :
    ∃ rest es', mvs = .proceed :: rest ∧ w₁.run rest = some (es', w') := by
  cases mvs with
  | nil =>
    cases hrun
    rw [inTurn_of_job? hj] at hend
    cases hend
  | cons mv rest =>
    obtain ⟨o, w₂, es', hs, hrun', rfl⟩ := run_cons hrun
    obtain rfl := move_of_job? hj (step_cases hs)
    cases hstep.symm.trans hs
    exact ⟨rest, es', rfl, hrun'⟩

lemma run_batch (hm : w.manager? i = some m) {cs : List SocketId} {ticks : List SocketEvent}
    (hj : w.job? i = some (.events (cs.map (⟨·, .accepted l⟩) ++ ticks))) :
    ∃ past v, w.run (.replicate cs.length .proceed) = some (past, v) ∧ ∀ e ∈ past, e.2 = .done := by
  induction cs generalizing w m with
  | nil => exact ⟨[], w, rfl, by simp⟩
  | cons c cs ih =>
    obtain ⟨w', hstep, hj', hs'⟩ := accepted_step hm hj
    obtain ⟨past, v, hrun, hdone⟩ := ih (manager?_of_site? hs') hj'
    refine ⟨(.proceed, .done) :: past, v, run_append (run_single hstep) hrun, ?_⟩
    simpa using hdone

/-- Where no stream is to be evicted, as many connections are admitted as there is room for. -/
lemma dealt_batch (hreach : (initial ports).Reaches w) {cs : List SocketId}
    {ticks : List SocketEvent} (hticks : awaiting ticks = []) (hm : w.manager? i = some m)
    (hl : w.listening? i = some l)
    (hj : w.job? i = some (.events (cs.map (⟨·, .accepted l⟩) ++ ticks)))
    (hno : cs = [] ∨ ∀ h, ¬ m.front.Contested w.network.clock h) {mvs : List (Move κ)}
    {es : History κ} (hrun : w.run mvs = some (es, w')) (hone : .begin i ∉ mvs)
    (hend : w'.inTurn i = false) :
    Dealt w i (w.trace mvs) w' cs (cs.take m.front.room) (cs.drop m.front.room) [] := by
  induction cs generalizing w m mvs es with
  | nil =>
    rw [List.take_nil, List.drop_nil]
    refine dealt_rest hreach (lt_of_manager? hm) (fun a ha => ?_) hrun hone
    rw [agenda?_of_job? hj] at ha
    cases ha
    exact hticks
  | cons c cs ih =>
    obtain ⟨w₁, m₁, hstep, hm₁, hl₁, hj₁, hclock, hruling⟩ := hreach.ruled hm hl hj
    obtain ⟨rest, es', rfl, hrest⟩ := run_of_job? hj hstep hrun hend
    have hone' : .begin i ∉ rest := fun hmem => hone (List.mem_cons_of_mem _ hmem)
    have hreach₁ := hreach.trans (.step _ _ hstep)
    have hlater := fun hno₁ => ih hreach₁ hm₁ hl₁ hj₁ (.inr hno₁) hrest hone'
    rw [trace_cons hstep]
    rcases (step_cases hstep).dealt hreach hm hm₁ hl hj hruling with
      ⟨hroom, hf, hfirst⟩ | ⟨hroom, -, hf, hfirst⟩ | ⟨g, hg, -⟩
    · have hall := hfirst.cons (hlater fun h => by
        rw [hf]
        exact fun hc => Front.not_contested_of_room hroom w₁.network.clock h
          ⟨hc.full, hc.pending, hc.victim⟩)
      obtain ⟨k, hk⟩ := Nat.exists_eq_add_one_of_ne_zero (Nat.ne_of_gt hroom)
      rw [hf, Front.room_enqueue, hk] at hall
      rw [hk]
      exact hall
    · have hall := hfirst.cons (hlater fun h => by
        rw [hf, hclock]
        exact fun hc => hno.resolve_left (List.cons_ne_nil c cs) h ⟨hc.full, hc.pending, hc.victim⟩)
      have hsame : m₁.front.room = 0 := hf ▸ hroom
      rw [hsame] at hall
      rw [hroom]
      exact hall
    · exact absurd hg (hno.resolve_left (List.cons_ne_nil c cs) g)

/-- Where a stream is to be evicted, the first connection takes its place and is the only one. -/
lemma dealt_contest (hreach : (initial ports).Reaches w) {cs : List SocketId}
    {ticks : List SocketEvent} (hticks : awaiting ticks = []) (hm : w.manager? i = some m)
    (hl : w.listening? i = some l)
    (hj : w.job? i = some (.events ((c :: cs).map (⟨·, .accepted l⟩) ++ ticks))) {h : Handle}
    (hc : m.front.Contested w.network.clock h) {mvs : List (Move κ)} {es : History κ}
    (hrun : w.run mvs = some (es, w')) (hone : .begin i ∉ mvs) (hend : w'.inTurn i = false) :
    Dealt w i (w.trace mvs) w' (c :: cs) [c] cs [h] := by
  obtain ⟨w₁, m₁, hstep, hm₁, hl₁, hj₁, hclock, hruling⟩ := hreach.ruled hm hl hj
  obtain ⟨rest, es', rfl, hrest⟩ := run_of_job? hj hstep hrun hend
  have hone' : .begin i ∉ rest := fun hmem => hone (List.mem_cons_of_mem _ hmem)
  have hreach₁ := hreach.trans (.step _ _ hstep)
  rw [trace_cons hstep]
  rcases (step_cases hstep).dealt hreach hm hm₁ hl hj hruling with
    ⟨hroom, -⟩ | ⟨-, hno, -⟩ | ⟨g, hg, hroom, hlt, hfirst⟩
  · exact absurd hc (Front.not_contested_of_room hroom _ h)
  · exact absurd hc (hno h)
  · obtain rfl := Manager.victim_unique hc.victim hg.victim
    have hall := hfirst.cons (dealt_batch hreach₁ hticks hm₁ hl₁ hj₁
      (.inr (Front.not_contested_of_lt hlt _)) hrest hone' hend)
    rw [hroom] at hall
    exact hall

/-! ### What is refused -/

/-- A connection that came in and was not admitted is closed at once. -/
lemma not_open_of_rejected (hreach : (initial ports).Reaches w) (h : Step w mv o w')
    (hc : c ∈ Stride.rejected ⟨w, mv, o, w'⟩ i) :
    c ∈ w.tokens ∧ w'.network.isOpen c = false := by
  rw [Stride.rejected, List.mem_filter, decide_eq_true_eq] at hc
  obtain ⟨harr, hadm⟩ := hc
  obtain ⟨⟨d, kind⟩, he, rfl⟩ := List.mem_map.mp harr
  obtain ⟨he, hkind⟩ := List.mem_filter.mp he
  obtain ⟨l, hl, hkind⟩ := (Option.any_eq_true _ _).mp hkind
  obtain rfl : kind = .accepted l := of_decide_eq_true hkind
  obtain ⟨batch, hj⟩ := event?_eq_some_iff.mp (Option.mem_toList.mp he)
  have harriving := mem_arriving_of_job? hj
  refine ⟨List.mem_append_left _ harriving, Bool.eq_false_iff.mpr fun hopen => ?_⟩
  obtain rfl := move_of_job? hj h
  obtain ⟨fs, hf⟩ := job?_eq_some_iff.mp hj
  cases hm : w.manager? i with
  | none =>
    dsimp only at hl
    rw [listening?, hm, Option.bind_none] at hl
    cases hl
  | some m =>
    obtain ⟨w₁, hstep, -, hs⟩ := accepted_step hm hj
    cases h.eq_some.symm.trans hstep
    obtain ⟨hm', hnet, -⟩ := (w'.site?_eq_some_iff i _).mp hs
    have hsite : w.site? i = some ⟨w.network, m, w.journal⟩ :=
      (w.site?_eq_some_iff i _).mpr ⟨hm, rfl, rfl⟩
    rw [hnet] at hopen
    have hpending := Site.mem_backlog_onAccepted _ d l (hreach.orderly.depth_eq_zero hf hsite).2 hopen
    refine hadm (List.mem_filter.mpr ⟨?_, ?_⟩)
    · rw [backlog_eq hm']
      exact hpending
    · have hfresh := not_pending_of_arriving harriving hreach (.refl w) i
      simpa using hfresh

lemma rejected_closed {mvs : List (Move κ)} {es : History κ}
    (hr : (initial ports).run mvs = some (es, w))
    (hc : c ∈ rejections i ((initial ports).trace mvs)) :
    w.network.isOpen c = false ∧ w.network.wasClosed c = true := by
  obtain ⟨x, hx, hrejected⟩ := List.mem_flatMap.mp hc
  obtain ⟨first, rest, htr⟩ := List.append_of_mem hx
  obtain ⟨mvs₁, mvs₂, es₁, es₂, rfl, hr₁, -, hstep, hr₂, -⟩ := trace_split hr htr
  obtain ⟨htoken, hclosed⟩ := not_open_of_rejected (.of_run hr₁) (step_cases hstep) hrejected
  have hend := closed_once hr₁ htoken (run_single hstep) hclosed
  have hstays := stays_closed (run_append hr₁ (run_single hstep))
    (List.count_pos_iff.mp (hend ▸ Nat.one_pos)) hr₂
  have hrest := run_append (run_single hstep) hr₂
  have hlast := closed_once hr₁ htoken hrest hstays
  obtain ⟨as, hn, hreported⟩ := reported_run (run_append hr₁ hrest)
  refine ⟨hstays, ?_⟩
  rw [hn]
  refine Network.wasClosed_of_heard as ?_
  rw [← hreported]
  exact List.count_pos_iff.mp (hlast ▸ Nat.one_pos)

/-- A turn of a manager that finds nothing but new connections for its listener. If every slot is taken,
the backlog may hold a connection, and the stream that has been idle for the longest time was idle for
long enough, then that stream is evicted, and the first connection is admitted. Otherwise nothing is
evicted, and as many connections as there is room for are admitted. The others are refused and closed.
None of this waits for a callback or depends on one. -/
theorem batch_admission {mvs : List (Move κ)} {es : History κ}
    (hr : (initial ports).run mvs = some (es, w)) (hact : w.mayAct = true) (hi : w.inTurn i = false)
    (hm : w.manager? i = some m) (hl : w.listening? i = some l) {cs : List SocketId}
    (hq : w.network.queue = cs.map (⟨·, .accepted l⟩)) :
    (∃ past v, w.run (.begin i :: .replicate cs.length .proceed) = some (past, v) ∧
      ∀ e ∈ past, e.2 = .done) ∧
    ∀ turn es' w', w.run (.begin i :: turn) = some (es', w') → .begin i ∉ turn →
      w'.inTurn i = false →
      let tr := w.trace (.begin i :: turn)
      (∀ h, cs ≠ [] → m.front.Contested w.network.clock h →
        Dealt w i tr w' cs (cs.take 1) (cs.drop 1) [h]) ∧
      ((cs = [] ∨ ∀ h, ¬ m.front.Contested w.network.clock h) →
        Dealt w i tr w' cs (cs.take m.front.room) (cs.drop m.front.room) []) ∧
      ∀ c ∈ rejections i tr, w'.network.isOpen c = false ∧ w'.network.wasClosed c = true := by
  have hs : w.site? i = some ⟨w.network, m, w.journal⟩ :=
    (w.site?_eq_some_iff i _).mpr ⟨hm, rfl, rfl⟩
  have hreach := Reaches.of_run hr
  have hbegin := (Step.begin i _ hact hi hs).eq_some
  obtain ⟨ticks, hpoll, -⟩ := w.network.poll_eq
  have hticks : awaiting ticks = [] := by
    have hbatch := w.network.awaiting_poll
    rw [hpoll, awaiting_append] at hbatch
    exact List.append_right_eq_self.mp hbatch
  rw [hq] at hpoll
  have hj₁ : (w.begin i ⟨w.network, m, w.journal⟩).job? i =
      some (.events (cs.map (⟨·, .accepted l⟩) ++ ticks)) :=
    job?_eq_some_iff.mpr ⟨w.frames, by rw [← hpoll]; rfl⟩
  have hm₁ : (w.begin i ⟨w.network, m, w.journal⟩).manager? i =
      some { m with turns := m.turns + 1 } := (manager?_begin hs i).trans (if_pos rfl)
  have hl₁ : (w.begin i ⟨w.network, m, w.journal⟩).listening? i = some l :=
    (listening?_eq_some_iff hm₁ l).mpr ((listening?_eq_some_iff hm l).mp hl)
  refine ⟨?_, fun turn es' w' hturn hone hend => ?_⟩
  · obtain ⟨past, v, hrun, hdone⟩ := run_batch hm₁ hj₁
    exact ⟨_, v, run_append (run_single hbegin) hrun, by simpa using hdone⟩
  obtain ⟨o, w₁, es₁, hstep, hrun, -⟩ := run_cons hturn
  cases hbegin.symm.trans hstep
  have hreach₁ := hreach.trans (.step _ _ hbegin)
  have hfirst := dealt_calm hreach (lt_of_manager? hm) (step_cases hbegin) fun c l he => by
    obtain ⟨batch, hj⟩ := event?_eq_some_iff.mp he
    cases (job?_of_mayAct hact i).symm.trans hj
  rw [trace_cons hbegin]
  refine ⟨fun h hne hc => hfirst.cons ?_, fun hno => hfirst.cons ?_, fun c hc => ?_⟩
  · cases cs with
    | nil => exact absurd rfl hne
    | cons c cs => exact dealt_contest hreach₁ hticks hm₁ hl₁ hj₁ hc hrun hone hend
  · exact dealt_batch hreach₁ hticks hm₁ hl₁ hj₁ hno hrun hone hend
  · rw [← trace_cons hbegin] at hc
    refine rejected_closed (i := i) (run_append hr hturn) ?_
    rw [trace_append hr, rejections, List.flatMap_append]
    exact List.mem_append_right _ hc

/-- The only slot is taken when three peers connect. -/
def rush : List (Move Unit) :=
  arrival ++ [.begin 0, .proceed, .proceed, .proceed, .proceed, .call 0 .accept, .leave, .proceed,
    .network (.connect 9000), .network (.connect 9000), .network (.connect 9000)]

theorem batch_admission_rush : ∃ es w es' w', (initial .standard).run rush = some (es, w) ∧
    w.run (.begin 0 :: (.replicate 9 .proceed ++ [.leave, .proceed])) = some (es', w') ∧
    Dealt w 0 (w.trace (.begin 0 :: (.replicate 9 .proceed ++ [.leave, .proceed]))) w'
      [⟨3⟩, ⟨4⟩, ⟨5⟩] [⟨3⟩] [⟨4⟩, ⟨5⟩] [⟨0, 1⟩] ∧
    w'.network.isOpen ⟨3⟩ = true ∧ w'.network.isOpen ⟨5⟩ = false := by
  have hrun : ∃ es w m es' w', (initial .standard).run rush = some (es, w) ∧ w.mayAct = true ∧
      w.inTurn 0 = false ∧ w.manager? 0 = some m ∧ w.listening? 0 = some ⟨1⟩ ∧
      w.network.queue = [⟨3⟩, ⟨4⟩, ⟨5⟩].map (⟨·, .accepted ⟨1⟩⟩) ∧ m.active = m.options.capacity ∧
      1 ≤ m.options.maxPending ∧
      Candidate.victim? m.options.minIdle w.network.clock m.candidates = some ⟨⟨0, 1⟩, 0⟩ ∧
      w.run (.begin 0 :: (.replicate 9 .proceed ++ [.leave, .proceed])) = some (es', w') ∧
      w'.inTurn 0 = false ∧ w'.network.isOpen ⟨3⟩ = true :=
    ⟨_, _, _, _, _, rfl, rfl, rfl, rfl, rfl, rfl, rfl, by decide, rfl, rfl, rfl, rfl⟩
  obtain ⟨es, w, m, es', w', hr, hact, hi, hm, hl, hq, hfull, hpending, hvictim, hturn, hend, hopen⟩ :=
    hrun
  obtain ⟨-, hall⟩ := batch_admission hr hact hi hm hl hq
  obtain ⟨hcontest, -, hclosed⟩ := hall _ es' w' hturn (by simp) hend
  have hdealt := hcontest ⟨0, 1⟩ (by simp) ⟨hfull, hpending, Manager.victim_of_victim? hvictim⟩
  refine ⟨es, w, es', w', hr, hturn, hdealt, hopen, (hclosed ⟨5⟩ ?_).1⟩
  rw [hdealt.rejected]
  simp

end Moment

end BoundedStreams
