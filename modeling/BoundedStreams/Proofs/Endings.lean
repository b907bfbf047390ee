import BoundedStreams.Proofs.Notices

/-! The end of every stream is told, once for each time it was asked for. -/

namespace BoundedStreams

/-- The orphans whose turn is still to come. -/
def Agenda.due : Agenda → List Handle
  | .ends hs => hs
  | .events _ | .flush => []

namespace Moment

variable {κ : Type}

/-- Nobody who is to hear of an end is forgotten. -/
structure Kept (m : Manager κ) (due : List Handle) (h : Handle) : Prop where
  wanted : ∀ r, m.streams.get? h = some r → r.socket = none → r.interests.isEmpty = false
  queued : h ∈ m.ending → ∃ r, m.streams.get? h = some r ∧ r.socket = none
  mourned : ∀ r, m.streams.get? h = some r → r.Mourned → h ∈ m.ending ∨ h ∈ due

def due (w : Moment κ) (i : Nat) : List Handle := (w.agenda? i).elim [] Agenda.due

lemma due_of_agenda? {w : Moment κ} {i : Nat} {a : Agenda} (ha : w.agenda? i = some a) :
    w.due i = a.due := by
  rw [due, ha, Option.elim_some]

/-- An orphan stays due until its end is delivered or put off. -/
lemma mem_due_rest {s : Site κ} {a : Agenda} {h : Handle} {n : Option (Notice κ)}
    (hb : a.Brings s h n .spare) {r : Stream κ} (hr : s.manager.streams.get? h = some r)
    (hm : r.Mourned) (hd : h ∈ a.due) : h ∈ a.rest.elim [] Agenda.due := by
  cases hb with
  | spare _ _ hn hno =>
    rcases a with es | (_ | ⟨g, hs⟩) | _
    · cases hd
    · cases hd
    · rcases List.mem_cons.mp hd with rfl | hd
      · exact absurd hm (hno hs r rfl hr)
      · exact hd
    · cases hd

section Kept

variable {m : Manager κ} {due due' : List Handle} {h : Handle} {r : Stream κ}

lemma Kept.of_none (hr : m.streams.get? h = none) (he : h ∉ m.ending) : Kept m due h where
  wanted q hq := by
    rw [hr] at hq
    cases hq
  queued hh := absurd hh he
  mourned q hq := by
    rw [hr] at hq
    cases hq

lemma Kept.of_some (hr : m.streams.get? h = some r)
    (hw : r.socket = none → r.interests.isEmpty = false) (hq : h ∈ m.ending → r.socket = none)
    (hm : r.Mourned → h ∈ m.ending ∨ h ∈ due) : Kept m due h where
  wanted q hq hc := by
    rw [hr] at hq
    cases hq
    exact hw hc
  queued hh := ⟨r, hr, hq hh⟩
  mourned q hq hm' := by
    rw [hr] at hq
    cases hq
    exact hm hm'

lemma Kept.socket_eq_none (hk : Kept m due h) (hr : m.streams.get? h = some r) (hh : h ∈ m.ending) :
    r.socket = none := by
  obtain ⟨q, hq, hc⟩ := hk.queued hh
  rw [hr] at hq
  cases hq
  exact hc

lemma Kept.course {s s' : Site κ} {t : Treatment κ} (hk : Kept s.manager due h)
    (ht : Site.Course h s s' t) (hdue : t = .spare → ∀ r, s.manager.streams.get? h = some r →
      r.Mourned → h ∈ due → h ∈ due') : Kept s'.manager due' h := by
  cases ht with
  | spare hr he =>
    refine ⟨by rw [hr]; exact hk.wanted, by rw [hr, he]; exact hk.queued, fun r hr' hm => ?_⟩
    rw [hr] at hr'
    exact (hk.mourned r hr' hm).imp he.mpr (hdue rfl r hr' hm)
  | touch r hr hc hr' he =>
    have hsocket : h ∈ s'.manager.ending → r.socket = none :=
      fun hh => hk.socket_eq_none hr (he.mp hh)
    exact .of_some hr' (hk.wanted r hr) hsocket fun hm => absurd hm.socket hc
  | claim c hr hr' he =>
    refine .of_some hr' (fun hc => by cases hc) (fun hh => ?_) fun hm => by cases hm.socket
    obtain ⟨r, hr₀, -⟩ := hk.queued (he.mp hh)
    rw [hr] at hr₀
    cases hr₀
  | arm want callback r hr hr' hwant he =>
    have hsocket : h ∈ s'.manager.ending → r.socket = none :=
      fun hh => (he.mp hh).elim (hk.socket_eq_none hr) id
    exact .of_some hr' hwant hsocket fun hm => .inl (he.mpr (.inr hm.socket))
  | notify callback e r hr hc ho ht hd hr' he =>
    have hsocket : h ∈ s'.manager.ending → r.socket = none :=
      fun hh => hk.socket_eq_none hr (he.mp hh)
    exact .of_some hr' (hk.wanted r hr) hsocket fun hm => by cases hm.outstanding
  | postpone r hr hc hr' he => exact .of_some hr' (hk.wanted r hr) (fun _ => hc) fun _ => .inl he
  | lose r c hr hc hi hr' he => exact .of_some hr' (fun _ => hi) (fun _ => rfl) fun _ => .inl he
  | free r hr hr' he =>
    refine .of_none hr' fun hh => ?_
    obtain ⟨hh, hc⟩ := he hh
    exact hc (hk.socket_eq_none hr hh)

end Kept

lemma Passage.kept {w w' : Moment κ} {i : Nat} {h : Handle} {mv : Move κ} {o : Outcome κ}
    (hp : Passage w i h w' mv o) (hw : ∀ m, w.manager? i = some m → Kept m (w.due i) h)
    {m' : Manager κ} (hm' : w'.manager? i = some m') : Kept m' (w'.due i) h := by
  cases hp with
  | away mv o hm hm'' ho hcall | gone hm'' ha =>
    rw [hm''] at hm'
    cases hm'
  | born p m hi hm hs he ha =>
    rw [hm] at hm'
    cases hm'
    exact .of_none (by rw [hs, Arena.get?_empty]) (by simp [he])
  | begun s hs hs' ha ha' =>
    have hk := hw _ (manager?_of_site? hs)
    rw [manager?_of_site? hs'] at hm'
    cases hm'
    refine ⟨hk.wanted, hk.queued, fun r hr hm => .inl ?_⟩
    rcases hk.mourned r hr hm with hh | hh
    · exact hh
    · rw [due, ha] at hh
      cases hh
  | taken s hs hs' ha ha' =>
    have hk := hw _ (manager?_of_site? hs)
    rw [manager?_of_site? hs'] at hm'
    cases hm'
    refine ⟨hk.wanted, fun hh => absurd hh List.not_mem_nil, fun r hr hm => .inr ?_⟩
    rw [due_of_agenda? ha']
    rcases hk.mourned r hr hm with hh | hh
    · exact hh
    · rw [due_of_agenda? ha] at hh
      cases hh
  | treated mv o s s' t hs hs' ht hb ha =>
    have hk := hw _ (manager?_of_site? hs)
    rw [manager?_of_site? hs'] at hm'
    cases hm'
    refine hk.course ht.course fun hspare r hr hm hh => ?_
    subst hspare
    rcases ha with ⟨ha, -⟩ | ⟨a, n, hnil, ha, ha', hb'⟩
    · rwa [due, ha]
    · rw [due_of_agenda? ha] at hh
      rw [due, ha']
      exact mem_due_rest hb' hr hm hh

/-- All that is known of the notifications of a run and of those that are still to come. -/
structure Tended (past : History κ) (w : Moment κ) : Prop where
  heard : Heard past w
  kept : ∀ i h m, w.manager? i = some m → Kept m (w.due i) h

lemma Tended.step {past : History κ} {w w' : Moment κ} (hw : Tended past w) {mv : Move κ}
    {o : Outcome κ} (hs : w.step mv = some (o, w')) : Tended (past ++ [(mv, o)]) w' where
  heard := hw.heard.step hs
  kept i h _ hm :=
    ((step_cases hs).passage hw.heard.numbered.orderly i h).kept (hw.kept i h) hm

lemma tended_run {ports : PortSource} {mvs : List (Move κ)} {es : History κ} {w : Moment κ}
    (hr : (initial ports).run mvs = some (es, w)) : Tended es w :=
  run_invariant (fun _ _ _ _ _ hw hs => hw.step hs)
    ⟨heard_initial ports, fun i h m hm => by simp [manager?, initial] at hm⟩ hr

lemma Tended.passage {past : History κ} {w w' : Moment κ} (hw : Tended past w) {mv : Move κ}
    {o : Outcome κ} (hs : w.step mv = some (o, w')) (i : Nat) (h : Handle) :
    Passage w i h w' mv o :=
  (step_cases hs).passage hw.heard.numbered.orderly i h

/-! ### Until it is told -/

/-- The consumer of the stream under `h` neither hears of it nor arms or closes it. -/
def quiet (i : Nat) (h : Handle) (x : Move κ × Outcome κ) : Bool := !settles i h x && !notifies i h x

lemma quiet_eq_true_iff {i : Nat} {h : Handle} {x : Move κ × Outcome κ} :
    quiet i h x = true ↔ settles i h x = false ∧ notifies i h x = false := by
  simp [quiet]

/-- The manager has an orphan under `h`, with the record `r`, that is to hear of its end. -/
structure Mourns (m : Manager κ) (h : Handle) (r : Stream κ) : Prop where
  record : m.streams.get? h = some r
  mourned : r.Mourned

/-- The record of an orphan stays as it is until its consumer is told or acts. -/
lemma Passage.mourns {w w' : Moment κ} {i : Nat} {h : Handle} {mv : Move κ} {o : Outcome κ}
    (hp : Passage w i h w' mv o) {m : Manager κ} {r : Stream κ} (hm : w.manager? i = some m)
    (hr : Mourns m h r) (hq : quiet i h (mv, o) = true) :
    w.agenda? i = none ∧ w'.manager? i = none ∨
      ∃ m', w'.manager? i = some m' ∧ Mourns m' h r ∧ (mv = .begin i ∨ m'.turns = m.turns) := by
  obtain ⟨hsettle, hnote⟩ := quiet_eq_true_iff.mp hq
  cases hp with
  | away mv o hm' hm'' ho hcall =>
    rw [hm] at hm'
    cases hm'
  | gone hm' ha => exact .inl ⟨ha, hm'⟩
  | born p m' hi hm' hs he ha =>
    have hlt := lt_of_manager? hm
    omega
  | begun s hs hs' ha ha' =>
    rw [manager?_of_site? hs] at hm
    cases hm
    exact .inr ⟨_, manager?_of_site? hs', ⟨hr.record, hr.mourned⟩, .inl rfl⟩
  | taken s hs hs' ha ha' =>
    rw [manager?_of_site? hs] at hm
    cases hm
    exact .inr ⟨_, manager?_of_site? hs', ⟨hr.record, hr.mourned⟩, .inr rfl⟩
  | treated mv o s s' t hs hs' ht hb ha =>
    rw [manager?_of_site? hs] at hm
    cases hm
    refine .inr ⟨_, manager?_of_site? hs', ⟨?_, hr.mourned⟩, .inr ht.turns⟩
    have hrec := hr.record
    cases ht.course with
    | spare hr' he => rw [hr', hrec]
    | touch r' hr' hc hr'' he =>
      rw [hrec] at hr'
      cases hr'
      exact absurd hr.mourned.socket hc
    | claim c hr' hr'' he =>
      rw [hrec] at hr'
      cases hr'
    | arm want callback r' hr' hr'' hwant he =>
      cases hb with
      | arm => simp [settles, Call.settles] at hsettle
    | notify callback e r' hr' hc ho ht' hd hr'' he =>
      cases hb with
      | notify => simp [notifies] at hnote
    | postpone r' hr' hc hr'' he =>
      rw [hr'', ← hr', hrec]
    | lose r' c hr' hc hi hr'' he =>
      rw [hrec] at hr'
      cases hr'
      rw [hr.mourned.socket] at hc
      cases hc
    | free r' hr' hr'' he =>
      cases hb with
      | dismiss | close => simp [settles, Call.settles] at hsettle
      | free r'' hr''' hc =>
        rw [hrec] at hr'''
        cases hr'''
        exact absurd hr.mourned.socket hc

/-- In this turn the orphan under `h` is still to hear of its end. -/
def Awaits (w : Moment κ) (i : Nat) (h : Handle) (r : Stream κ) : Prop :=
  ∃ m a, w.manager? i = some m ∧ Mourns m h r ∧ r.notifiedTurn ≠ some m.turns ∧
    w.agenda? i = some a ∧ ((∃ es, a = .events es) ∨ h ∈ a.due)

lemma awaits_rest {s : Site κ} {a : Agenda} {h : Handle} {n : Option (Notice κ)} {t : Treatment κ}
    (hb : a.Brings s h n t) (ht : ∀ cb e, t ≠ .notify cb e) (hnil : a ≠ .events []) {r : Stream κ}
    (hr : Mourns s.manager h r) (hst : r.notifiedTurn ≠ some s.manager.turns)
    (hdue : (∃ es, a = .events es) ∨ h ∈ a.due) :
    ∃ a', a.rest = some a' ∧ ((∃ es, a' = .events es) ∨ h ∈ a'.due) := by
  rcases a with (_ | ⟨e, es⟩) | (_ | ⟨g, hs⟩) | _
  · exact absurd rfl hnil
  · exact ⟨.events es, rfl, .inl ⟨es, rfl⟩⟩
  · rcases hdue with ⟨es, he⟩ | hmem
    · cases he
    · cases hmem
  · refine ⟨.ends hs, rfl, .inr ?_⟩
    rcases hdue with ⟨es, he⟩ | hmem
    · cases he
    rcases List.mem_cons.mp hmem with rfl | hmem
    · cases hb with
      | spare _ _ hn hno => exact absurd hr.mourned (hno hs r rfl hr.record)
      | notify _ cb e => exact absurd rfl (ht cb e)
      | postpone _ r' hr' hst' =>
        rw [hr.record] at hr'
        cases hr'
        exact absurd hst' hst
    · exact hmem
  · rcases hdue with ⟨es, he⟩ | hmem
    · cases he
    · cases hmem

lemma Tended.awaits_step {past : History κ} {w w' : Moment κ} (hw : Tended past w) {mv : Move κ}
    {o : Outcome κ} (hstep : w.step mv = some (o, w')) {i : Nat} {h : Handle} {r : Stream κ}
    (ha : Awaits w i h r) (hq : quiet i h (mv, o) = true) (hmv : mv ≠ .begin i) :
    Awaits w' i h r := by
  obtain ⟨m, a, hm, hr, hst, hag, hdue⟩ := ha
  have hp := hw.passage hstep i h
  rcases hp.mourns hm hr hq with ⟨hno, -⟩ | ⟨m', hm', hr', hbegin | htu⟩
  · rw [hag] at hno
    cases hno
  · exact absurd hbegin hmv
  have hst' : r.notifiedTurn ≠ some m'.turns := htu ▸ hst
  cases hp with
  | away mv o hm'' hm''' ho hcall =>
    rw [hm] at hm''
    cases hm''
  | gone hm'' ha =>
    rw [hm'] at hm''
    cases hm''
  | born p m'' hi hm'' hs he ha =>
    have hlt := lt_of_manager? hm
    omega
  | begun s hs hs' ha ha' => exact absurd rfl hmv
  | taken s hs hs' ha ha' =>
    -- The list that is taken holds every orphan that is to hear of its end.
    have hms := manager?_of_site? hs
    rw [hms] at hm
    cases hm
    have hk := (hw.kept i h _ hms).mourned r hr.record hr.mourned
    rw [due_of_agenda? ha] at hk
    exact ⟨m', _, hm', hr', hst', ha', .inr (hk.resolve_right nofun)⟩
  | treated mv o s s' t hs hs' ht hb ha =>
    rw [manager?_of_site? hs] at hm
    cases hm
    rcases ha with ⟨ha, -⟩ | ⟨a', n, hnil, ha, ha', hb'⟩
    · exact ⟨m', a, hm', hr', hst', ha.trans hag, hdue⟩
    · rw [hag] at ha
      cases ha
      have hno : ∀ cb e, t ≠ .notify cb e := by
        rintro cb e rfl
        cases hb with
        | notify => simp [quiet, notifies] at hq
      obtain ⟨b, hb, hdue⟩ := awaits_rest hb' hno hnil hr hst hdue
      exact ⟨m', b, hm', hr', hst', ha'.trans hb, hdue⟩

lemma Tended.awaits_run {past es : History κ} {w w' : Moment κ} {mvs : List (Move κ)}
    (hw : Tended past w) (hrun : w.run mvs = some (es, w')) {i : Nat} {h : Handle} {r : Stream κ}
    (ha : Awaits w i h r) (hq : ∀ x ∈ es, quiet i h x = true) (hmvs : .begin i ∉ mvs) :
    w'.inTurn i = true := by
  induction mvs generalizing w past es with
  | nil =>
    cases hrun
    obtain ⟨m, a, -, -, -, hag, -⟩ := ha
    rw [inTurn_eq_isSome, hag]
    rfl
  | cons mv mvs ih =>
    obtain ⟨o, w₁, es', hs, hrun', rfl⟩ := run_cons hrun
    simp only [List.mem_cons, not_or] at hmvs
    have ha₁ := hw.awaits_step hs ha (hq _ (by simp)) (Ne.symm hmvs.1)
    exact ih (hw.step hs) hrun' ha₁ (fun x hx => hq x (by simp [hx])) hmvs.2

/-! ### What happens first -/

lemma Passage.away_stays {w w' : Moment κ} {i : Nat} {h : Handle} {mv : Move κ} {o : Outcome κ}
    (hp : Passage w i h w' mv o) (hi : i < w.managers.length) (hm : w.manager? i = none) :
    w'.manager? i = none ∧ quiet i h (mv, o) = true := by
  have hsite : ∀ s, w.site? i ≠ some s := by
    intro s hs
    rw [manager?_of_site? hs] at hm
    cases hm
  cases hp with
  | away mv o hm' hm'' ho hcall =>
    refine ⟨hm'', quiet_eq_true_iff.mpr ⟨?_, ?_⟩⟩
    · rw [Bool.eq_false_iff]
      intro hx
      obtain ⟨c, hc, -⟩ := settles_eq_true_iff.mp hx
      exact hcall c hc
    · rw [Bool.eq_false_iff]
      intro hx
      obtain ⟨cb, e, hn⟩ := notifies_eq_true_iff.mp hx
      exact ho _ hn
  | gone hm' ha => exact ⟨hm', rfl⟩
  | born p m hi' hm' hs he ha => omega
  | begun s hs hs' ha ha' => exact absurd hs (hsite s)
  | taken s hs hs' ha ha' => exact absurd hs (hsite s)
  | treated mv o s s' t hs hs' ht hb ha => exact absurd hs (hsite s)

lemma Tended.away_run {past es : History κ} {w w' : Moment κ} {mvs : List (Move κ)}
    (hw : Tended past w) (hrun : w.run mvs = some (es, w')) {i : Nat} (h : Handle)
    (hi : i < w.managers.length) (hm : w.manager? i = none) :
    w'.manager? i = none ∧ ∀ x ∈ es, quiet i h x = true := by
  induction mvs generalizing w past es with
  | nil =>
    cases hrun
    exact ⟨hm, by simp⟩
  | cons mv mvs ih =>
    obtain ⟨o, w₁, es', hs, hrun', rfl⟩ := run_cons hrun
    obtain ⟨hm₁, hq⟩ := (hw.passage hs i h).away_stays hi hm
    have hi₁ := Nat.lt_of_lt_of_le hi (step_cases hs).length_le
    obtain ⟨hm', hqs⟩ := ih (hw.step hs) hrun' hi₁ hm₁
    refine ⟨hm', fun x hx => ?_⟩
    rcases List.mem_cons.mp hx with rfl | hx
    · exact hq
    · exact hqs x hx

/-- What the consumer of an orphan hears. -/
def endEvent (want : Interests) : StreamEvent := if want.readable then .readable else .writable

/-- The first thing that becomes of the orphan under `h` is that its consumer arms or closes it, or
hears of its end. -/
def Answered (i : Nat) (h : Handle) (r : Stream κ) (es : History κ) : Prop :=
  ∃ first x rest, es = first ++ x :: rest ∧ (∀ y ∈ first, quiet i h y = true) ∧
    (settles i h x = true ∨ ∃ cb, r.callback = some cb ∧
      x = (.proceed, .notice i (.event cb h (endEvent r.interests))))

lemma Answered.before {i : Nat} {h : Handle} {r : Stream κ} {es : History κ}
    (hans : Answered i h r es) (fs : History κ) : Answered i h r (es ++ fs) := by
  obtain ⟨first, x, rest, rfl, hfirst, hx⟩ := hans
  exact ⟨first, x, rest ++ fs, by simp, hfirst, hx⟩

lemma Answered.after {i : Nat} {h : Handle} {r : Stream κ} {es fs : History κ}
    (hans : Answered i h r fs) (hq : ∀ x ∈ es, quiet i h x = true) : Answered i h r (es ++ fs) := by
  obtain ⟨first, x, rest, rfl, hfirst, hx⟩ := hans
  refine ⟨es ++ first, x, rest, by simp, fun y hy => ?_, hx⟩
  exact (List.mem_append.mp hy).elim (hq y) (hfirst y)

lemma due?_of_mourned {n : Network} {r : Stream κ} (hr : r.Mourned) :
    r.due? n = some (endEvent r.interests) := by
  have hw := hr.wanted
  simp only [Stream.due?, hr.socket, Readiness.dueAtEnd?, endEvent]
  simp only [Interests.isEmpty, Bool.and_eq_false_iff, Bool.not_eq_false'] at hw
  split
  · rfl
  · next hread =>
    have hwrite := hw.resolve_left hread
    simp [hwrite]

/-- Until the orphan is told or settled its record stays, as long as the manager does. -/
lemma Tended.answered {past es : History κ} {w w' : Moment κ} {mvs : List (Move κ)}
    (hw : Tended past w) (hrun : w.run mvs = some (es, w')) {i : Nat} {h : Handle} {r : Stream κ}
    {m : Manager κ} (hm : w.manager? i = some m) (hr : Mourns m h r) :
    (∀ x ∈ es, quiet i h x = true) ∧ (w'.manager? i = none ∨
        ∃ m', w'.manager? i = some m' ∧ Mourns m' h r) ∨ Answered i h r es := by
  induction mvs generalizing w past es m with
  | nil =>
    cases hrun
    exact .inl ⟨by simp, .inr ⟨m, hm, hr⟩⟩
  | cons mv mvs ih =>
    obtain ⟨o, w₁, es', hs, hrun', rfl⟩ := run_cons hrun
    cases hq : quiet i h (mv, o) with
    | true =>
      have hcons : (∀ x ∈ es', quiet i h x = true) → ∀ x ∈ (mv, o) :: es', quiet i h x = true := by
        intro hqs x hx
        rcases List.mem_cons.mp hx with rfl | hx
        · exact hq
        · exact hqs x hx
      rcases (hw.passage hs i h).mourns hm hr hq with ⟨-, hm₁⟩ | ⟨m₁, hm₁, hr₁, -⟩
      · have hi := Nat.lt_of_lt_of_le (lt_of_manager? hm) (step_cases hs).length_le
        obtain ⟨hm', hqs⟩ := (hw.step hs).away_run hrun' h hi hm₁
        exact .inl ⟨hcons hqs, .inl hm'⟩
      · rcases ih (hw.step hs) hrun' hm₁ hr₁ with ⟨hqs, hm'⟩ | ⟨first, x, rest, rfl, hfirst, hx⟩
        · exact .inl ⟨hcons hqs, hm'⟩
        · have hone : ∀ y ∈ [(mv, o)], quiet i h y = true := by simp [hq]
          exact .inr (Answered.after ⟨first, x, rest, rfl, hfirst, hx⟩ hone)
    | false =>
      refine .inr ⟨[], (mv, o), es', rfl, by simp, ?_⟩
      cases hsettle : settles i h (mv, o) with
      | true => exact .inl rfl
      | false =>
        have hnote : notifies i h (mv, o) = true := by
          rw [quiet, hsettle] at hq
          simpa using hq
        obtain ⟨cb, e, rfl⟩ := notifies_eq_true_iff.mp hnote
        obtain ⟨rfl, s, s', hsite, -, ht⟩ := notice_treats hw.heard.numbered.orderly hs
        rw [manager?_of_site? hsite] at hm
        cases hm
        cases ht.course with
        | notify cb e r' hr' hc ho ht' hd hr'' he =>
          rw [hr.record] at hr'
          cases hr'
          rw [due?_of_mourned hr.mourned] at hd
          cases hd
          exact .inr ⟨cb, hc, rfl⟩

lemma Tended.awaits_begin {past : History κ} {w w' : Moment κ} (hw : Tended past w) {i : Nat}
    {o : Outcome κ} (hstep : w.step (.begin i) = some (o, w')) {h : Handle} {r : Stream κ}
    {m : Manager κ} (hm : w.manager? i = some m) (hr : Mourns m h r) : Awaits w' i h r := by
  have hp := hw.passage hstep i h
  generalize hmv : (Move.begin i : Move κ) = mv at hp
  cases hp with
  | away mv o hm' hm'' ho hcall =>
    rw [hm] at hm'
    cases hm'
  | gone hm' ha | born p m' hi hm' hs he ha | taken s hs hs' ha ha' => cases hmv
  | begun s hs hs' ha ha' =>
    rw [manager?_of_site? hs] at hm
    cases hm
    have hle := hw.heard.stamp i _ h r (s.manager.turns + 1) (manager?_of_site? hs)
      hr.record
    refine ⟨_, _, manager?_of_site? hs', ⟨hr.record, hr.mourned⟩, fun ht => ?_, ha',
      .inl ⟨_, rfl⟩⟩
    exact absurd (hle ht) (Nat.not_succ_le_self _)
  | treated mv o s s' t hs hs' ht hb ha =>
    cases hb with
    | spare mv o hsettles hn hclaim hbegin => exact absurd hmv.symm hbegin
    | _ => cases hmv

/-- Every orphan that is to hear of its end at the start of a turn is answered in that turn. -/
lemma Tended.answered_in_turn {past es : History κ} {w w' : Moment κ} {i : Nat}
    {mvs : List (Move κ)} (hw : Tended past w) (hrun : w.run (.begin i :: mvs) = some (es, w'))
    (hmvs : .begin i ∉ mvs) (hend : w'.inTurn i = false) {h : Handle} {r : Stream κ} {m : Manager κ}
    (hm : w.manager? i = some m) (hr : Mourns m h r) : Answered i h r es := by
  rcases hw.answered hrun hm hr with ⟨hq, -⟩ | hans
  · obtain ⟨o, w₁, es', hs, hrun', rfl⟩ := run_cons hrun
    have ha := hw.awaits_begin hs hm hr
    have hin := (hw.step hs).awaits_run hrun' ha (fun x hx => hq x (by simp [hx])) hmvs
    rw [hend] at hin
    cases hin
  · exact hans

/-- An orphan that was told of in this turn is not told again in it, unless it is settled first. -/
lemma Tended.unheard {past es : History κ} {w w' : Moment κ} {mvs : List (Move κ)}
    (hw : Tended past w) (hrun : w.run mvs = some (es, w')) {i : Nat} (hmvs : .begin i ∉ mvs)
    {h : Handle} {r : Stream κ} {m : Manager κ} (hm : w.manager? i = some m) (hr : Mourns m h r)
    (hst : r.notifiedTurn = some m.turns) {first rest : History κ} {x : Move κ × Outcome κ}
    (hsplit : es = first ++ x :: rest) (hfirst : ∀ y ∈ first, settles i h y = false) :
    notifies i h x = false := by
  induction mvs generalizing w past es m first with
  | nil =>
    cases hrun
    simp at hsplit
  | cons mv mvs ih =>
    obtain ⟨o, w₁, es', hs, hrun', rfl⟩ := run_cons hrun
    simp only [List.mem_cons, not_or] at hmvs
    have hnote : notifies i h (mv, o) = false := by
      rw [Bool.eq_false_iff]
      intro hn
      obtain ⟨cb, e, rfl⟩ := notifies_eq_true_iff.mp hn
      obtain ⟨-, s, s', hsite, -, ht⟩ := notice_treats hw.heard.numbered.orderly hs
      rw [manager?_of_site? hsite] at hm
      cases hm
      cases ht.course with
      | notify cb e r' hr' hc ho ht' hd hr'' he =>
        rw [hr.record] at hr'
        cases hr'
        exact ht' hst
    cases first with
    | nil =>
      cases hsplit
      exact hnote
    | cons y first =>
      obtain ⟨rfl, hsplit'⟩ := List.cons.inj hsplit
      have hq := quiet_eq_true_iff.mpr ⟨hfirst _ (by simp), hnote⟩
      rcases (hw.passage hs i h).mourns hm hr hq with ⟨-, hm₁⟩ | ⟨m₁, hm₁, hr₁, hbegin | htu⟩
      · have hi := Nat.lt_of_lt_of_le (lt_of_manager? hm) (step_cases hs).length_le
        have hqs := ((hw.step hs).away_run hrun' h hi hm₁).2 x (by simp [hsplit'])
        exact (quiet_eq_true_iff.mp hqs).2
      · exact absurd hbegin.symm hmvs.1
      · exact ih (hw.step hs) hrun' hmvs.2 hm₁ hr₁ (htu ▸ hst) hsplit'
          fun y hy => hfirst y (by simp [hy])

/-- A stream that loses its socket keeps all else, and events of the turn may still be left. -/
lemma Passage.orphans {w w' : Moment κ} {i : Nat} {h : Handle} {mv : Move κ} {o : Outcome κ}
    (hp : Passage w i h w' mv o) {m m' : Manager κ} {r r' : Stream κ} (hm : w.manager? i = some m)
    (hr : m.streams.get? h = some r) (hc : r.socket ≠ none) (hm' : w'.manager? i = some m')
    (hr' : m'.streams.get? h = some r') (hc' : r'.socket = none) :
    r' = { r with socket := none } ∧ m'.turns = m.turns ∧ ∃ es, w'.agenda? i = some (.events es) := by
  cases hp with
  | away mv o hm₁ hm₁' ho hcall =>
    rw [hm] at hm₁
    cases hm₁
  | gone hm₁ ha =>
    rw [hm'] at hm₁
    cases hm₁
  | born p m₁ hi hm₁ hs he ha =>
    have hlt := lt_of_manager? hm
    omega
  | begun s hs hs' ha ha' | taken s hs hs' ha ha' =>
    rw [manager?_of_site? hs] at hm
    rw [manager?_of_site? hs'] at hm'
    cases hm
    cases hm'
    have hsame : some r = some r' := hr.symm.trans hr'
    cases hsame
    exact absurd hc' hc
  | treated mv o s s' t hs hs' ht hb ha =>
    rw [manager?_of_site? hs] at hm
    rw [manager?_of_site? hs'] at hm'
    cases hm
    cases hm'
    cases ht.course with
    | spare hr₁ he =>
      rw [hr₁, hr] at hr'
      cases hr'
      exact absurd hc' hc
    | touch r₁ hr₁ hc₁ hr₁' he | arm want callback r₁ hr₁ hr₁' hwant he
    | notify callback e r₁ hr₁ hc₁ ho ht' hd hr₁' he | postpone r₁ hr₁ hc₁ hr₁' he =>
      rw [hr] at hr₁
      cases hr₁
      rw [hr₁'] at hr'
      cases hr'
      exact absurd hc' hc
    | claim c hr₁ hr₁' he =>
      rw [hr] at hr₁
      cases hr₁
    | lose r₁ c hr₁ hc₁ hi hr₁' he =>
      rw [hr] at hr₁
      cases hr₁
      rw [hr₁'] at hr'
      cases hr'
      refine ⟨rfl, ht.turns, ?_⟩
      rcases ha with ⟨-, hno⟩ | ⟨a, n, hnil, ha, ha', hb'⟩
      · cases hb with
        | lose => exact absurd (hno rfl) nofun
      · cases hb' with
        | lose e es r₂ c₂ abortive hr₂ hc₂ hcost => exact ⟨es, ha'⟩
    | free r₁ hr₁ hr₁' he =>
      rw [hr₁'] at hr'
      cases hr'

lemma arms_of_settles {i : Nat} {h : Handle} {es : History κ}
    (hes : ∀ x ∈ es, settles i h x = false) : ∀ x ∈ es, arms i h x = false :=
  fun x hx => arms_eq_false (hes x hx)

/-- After a notification there is no other before the next arming. -/
lemma Tended.silent {past es earlier since : History κ} {w w' : Moment κ} {mvs : List (Move κ)}
    (hw : Tended past w) (hrun : w.run mvs = some (es, w')) {i : Nat} {h : Handle}
    {n : Move κ × Outcome κ} (hsplit : past = earlier ++ n :: since) (hn : notifies i h n = true)
    (hsince : ∀ x ∈ since, arms i h x = false) (hes : ∀ x ∈ es, arms i h x = false) :
    ∀ x ∈ es, notifies i h x = false := by
  induction mvs generalizing w past es since with
  | nil =>
    cases hrun
    simp
  | cons mv mvs ih =>
    obtain ⟨o, w₁, es', hs, hrun', rfl⟩ := run_cons hrun
    have hone : notifies i h (mv, o) = false := by
      rw [Bool.eq_false_iff]
      intro hx
      obtain ⟨cb, e, rfl⟩ := notifies_eq_true_iff.mp hx
      obtain ⟨-, s, s', hsite, -, ht⟩ := notice_treats hw.heard.numbered.orderly hs
      cases ht.course with
      | notify cb e r hr hc ho ht' hd hr' he =>
        have hb := hw.heard.armed i _ h r cb (manager?_of_site? hsite) hr hc
        have harm := hsince _ (hb.mem_since ho hsplit hn)
        simp [arms] at harm
    have hpast : past ++ [(mv, o)] = earlier ++ n :: (since ++ [(mv, o)]) := by simp [hsplit]
    have hrest := ih (hw.step hs) hrun' hpast
      (fun x hx => by
        rcases List.mem_append.mp hx with hx | hx
        · exact hsince x hx
        · exact hes x (by simp [List.mem_singleton.mp hx]))
      fun x hx => hes x (by simp [hx])
    intro x hx
    rcases List.mem_cons.mp hx with rfl | hx
    · exact hone
    · exact hrest x hx

lemma Tended.mourns {past : History κ} {w : Moment κ} (hw : Tended past w) {i : Nat} {h : Handle}
    {m : Manager κ} {r : Stream κ} (hm : w.manager? i = some m) (hr : m.streams.get? h = some r)
    (hc : r.socket = none) (hcb : r.callback.isSome = true) (ho : r.readiness.outstanding = none) :
    Mourns m h r :=
  ⟨hr, hc, hcb, ho, (hw.kept i h m hm).wanted r hr hc⟩

lemma Tended.run {past es : History κ} {w w' : Moment κ} {mvs : List (Move κ)} (hw : Tended past w)
    (hrun : w.run mvs = some (es, w')) : Tended (past ++ es) w' :=
  run_invariant_from (fun _ _ _ _ _ hw hs => hw.step hs) hw hrun

/-- An answer that is not an act of the consumer is a single notification. -/
lemma Tended.told_once {past es : History κ} {w w' : Moment κ} {mvs : List (Move κ)}
    (hw : Tended past w) (hrun : w.run mvs = some (es, w')) {i : Nat} {h : Handle} {r : Stream κ}
    (hans : Answered i h r es) (hes : ∀ x ∈ es, settles i h x = false) :
    ∃ cb, r.callback = some cb ∧
      es.filter (notifies i h) = [(.proceed, .notice i (.event cb h (endEvent r.interests)))] ∧
      ∀ later fs w'', w'.run later = some (fs, w'') → (∀ x ∈ fs, arms i h x = false) →
        ∀ x ∈ fs, notifies i h x = false := by
  obtain ⟨first, x, rest, rfl, hfirst, hx⟩ := hans
  obtain ⟨cb, hcb, rfl⟩ := hx.resolve_left (by simp [hes x (by simp)])
  have hn : notifies i h
      (.proceed, (.notice i (.event cb h (endEvent r.interests)) : Outcome κ)) = true := by
    simp [notifies]
  have harms := arms_of_settles hes
  rw [List.append_cons] at hrun
  obtain ⟨mvs₁, mvs₂, w₁, rfl, hr₁, hr₂⟩ := run_of_append hrun
  have hw₁ := hw.run hr₁
  rw [← List.append_assoc] at hw₁
  have hrest := hw₁.silent hr₂ rfl hn (by simp) fun x hx => harms x (by simp [hx])
  refine ⟨cb, hcb, ?_, fun later fs w'' hr₃ hfs => ?_⟩
  · have hnone : first.filter (notifies i h) = [] := by
      rw [List.filter_eq_nil_iff]
      intro y hy
      simp [(quiet_eq_true_iff.mp (hfirst y hy)).2]
    have hnone' : rest.filter (notifies i h) = [] := by
      rw [List.filter_eq_nil_iff]
      intro y hy
      simp [hrest y hy]
    rw [List.filter_append, hnone, List.filter_cons, if_pos hn, hnone', List.nil_append]
  · have hw' := hw₁.run hr₂
    rw [← List.append_cons] at hw'
    exact hw'.silent hr₃ rfl hn (fun x hx => harms x (by simp [hx])) hfs

lemma orphan_of_phase? {w : Moment κ} {i : Nat} {h : Handle} (hp : w.phase? i h = some .orphaned) :
    ∃ m r, w.manager? i = some m ∧ m.streams.get? h = some r ∧ r.socket = none := by
  obtain ⟨⟨p, want⟩, hp, hstate⟩ := Option.map_eq_some_iff.mp hp
  obtain ⟨m, hm, hp⟩ := Option.bind_eq_some_iff.mp hp
  obtain ⟨r, hr, he⟩ := Option.map_eq_some_iff.mp hp
  cases he
  refine ⟨m, r, hm, hr, ?_⟩
  rw [Stream.state] at hstate
  split at hstate
  · cases hstate
  · next hc => simpa using hc

/-- Between turns exactly the orphans that are to hear of their end are waiting for it, and none that
nothing is wanted of is kept. Each of those hears of its end once in the next turn; and a stream that
loses its socket hears of that in the same turn, or in the next if it was told of something else
before. Only its consumer can forestall that. -/
theorem no_end_lost {ports : PortSource} {mvs : List (Move κ)} {past : History κ} {w : Moment κ}
    (hrun : (initial ports).run mvs = some (past, w)) {i : Nat} {m : Manager κ}
    (hm : w.manager? i = some m) :
    (w.inTurn i = false →
      (∀ h r, m.streams.get? h = some r → r.socket = none → r.interests.isEmpty = false) ∧
      (∀ h ∈ m.ending, ∃ r, m.streams.get? h = some r ∧ r.socket = none) ∧
      ∀ h r cb, m.streams.get? h = some r → r.socket = none → r.callback = some cb →
        r.readiness.outstanding = none → h ∈ m.ending ∧
        ∀ turn es w', w.run (.begin i :: turn) = some (es, w') → .begin i ∉ turn →
          w'.inTurn i = false → (∀ x ∈ es, settles i h x = false) →
          es.filter (notifies i h) = [(.proceed, .notice i (.event cb h (endEvent r.interests)))] ∧
          ∀ later fs w'', w'.run later = some (fs, w'') → (∀ x ∈ fs, arms i h x = false) →
            ∀ x ∈ fs, notifies i h x = false) ∧
    ∀ h r mv o w₁, m.streams.get? h = some r → r.socket ≠ none → r.callback.isSome = true →
      r.interests.isEmpty = false → r.readiness.outstanding = none →
      w.step mv = some (o, w₁) → w₁.phase? i h = some .orphaned →
      (¬ Told past i h → ∀ turn es w₂, w₁.run turn = some (es, w₂) → .begin i ∉ turn →
        w₂.inTurn i = false → Answered i h r es) ∧
      (Told past i h → ∀ turn es w₂ next fs w₃, w₁.run turn = some (es, w₂) → .begin i ∉ turn →
        w₂.run (.begin i :: next) = some (fs, w₃) → .begin i ∉ next → w₃.inTurn i = false →
        Answered i h r (es ++ fs) ∧ ∀ first x rest, es = first ++ x :: rest →
          (∀ y ∈ first, settles i h y = false) → notifies i h x = false) := by
  have hw := tended_run hrun
  refine ⟨fun hout => ⟨?_, ?_, fun h r cb hr hc hcb ho => ⟨?_, ?_⟩⟩, ?_⟩
  · exact fun h => (hw.kept i h m hm).wanted
  · exact fun h => (hw.kept i h m hm).queued
  · have hmourns := hw.mourns hm hr hc (by simp [hcb]) ho
    rcases (hw.kept i h m hm).mourned r hr hmourns.mourned with hh | hh
    · exact hh
    · rw [due, agenda?_eq_none hout] at hh
      cases hh
  · intro turn es w' hturn hb hend hes
    have hmourns := hw.mourns hm hr hc (by simp [hcb]) ho
    have hans := hw.answered_in_turn hturn hb hend hm hmourns
    obtain ⟨cb', hcb', honce⟩ := hw.told_once hturn hans hes
    rw [hcb] at hcb'
    cases hcb'
    exact honce
  · intro h r mv o w₁ hr hc hcb hi ho hs hphase
    have hw₁ := hw.step hs
    obtain ⟨m₁, r₁, hm₁, hr₁, hc₁⟩ : ∃ m₁ r₁, w₁.manager? i = some m₁ ∧
        m₁.streams.get? h = some r₁ ∧ r₁.socket = none := orphan_of_phase? hphase
    obtain ⟨rfl, htu, es₀, hag⟩ := (hw.passage hs i h).orphans hm hr hc hm₁ hr₁ hc₁
    have hmourns : Mourns m₁ h { r with socket := none } := ⟨hr₁, rfl, hcb, ho, hi⟩
    have hst := hw.heard.stamped i m h r hm hr
    refine ⟨fun hnot turn es w₂ hturn hb hend => ?_, fun htold => ?_⟩
    · rcases hw₁.answered hturn hm₁ hmourns with ⟨hq, -⟩ | hans
      · have hnew : r.notifiedTurn ≠ some m₁.turns := fun he => hnot (hst.mp (htu ▸ he))
        have ha : Awaits w₁ i h { r with socket := none } :=
          ⟨m₁, _, hm₁, hmourns, hnew, hag, .inl ⟨es₀, rfl⟩⟩
        have hin := hw₁.awaits_run hturn ha hq hb
        rw [hend] at hin
        cases hin
      · exact hans
    · intro turn es w₂ next fs w₃ hturn hb hnext hb' hend
      refine ⟨?_, fun first x rest hsplit hfirst => ?_⟩
      · rcases hw₁.answered hturn hm₁ hmourns with ⟨hq, hgone | ⟨m₂, hm₂, hmourns₂⟩⟩ | hans
        · obtain ⟨o', w₂', fs', hs', -⟩ := run_cons hnext
          cases step_cases hs' with
          | begin _ s hact hout hsite =>
            rw [((w₂.site?_eq_some_iff i s).mp hsite).1] at hgone
            cases hgone
        · exact ((hw₁.run hturn).answered_in_turn hnext hb' hend hm₂ hmourns₂).after hq
        · exact hans.before fs
      · have hold : r.notifiedTurn = some m₁.turns := htu ▸ hst.mpr htold
        exact hw₁.unheard hturn hb hm₁ hmourns hold hsplit hfirst

theorem no_end_lost_rearmed : ∃ past w es w' fs w'',
    (initial .standard).run (arrival ++ [.begin 0, .proceed, .proceed, .proceed, .proceed,
        .call 0 .accept, .call 0 (.arm ⟨0, 1⟩ .read (some ())), .leave, .proceed,
        .network (.peerClose ⟨2⟩), .begin 0, .proceed, .proceed, .proceed,
        .call 0 (.arm ⟨0, 1⟩ .read (some ())), .leave, .proceed, .proceed]) = some (past, w) ∧
      w.run [.begin 0, .proceed, .proceed, .leave, .proceed, .proceed] = some (es, w') ∧
      es.filter (notifies 0 ⟨0, 1⟩) = [(.proceed, .notice 0 (.event () ⟨0, 1⟩ .readable))] ∧
      w'.run [.begin 0, .proceed, .proceed, .proceed] = some (fs, w'') ∧
      ∀ x ∈ fs, notifies 0 ⟨0, 1⟩ x = false := by
  have hrun : ∃ past w m es w' fs w'' r,
      (initial .standard).run (arrival ++ [.begin 0, .proceed, .proceed, .proceed, .proceed,
          .call 0 .accept, .call 0 (.arm ⟨0, 1⟩ .read (some ())), .leave, .proceed,
          .network (.peerClose ⟨2⟩), .begin 0, .proceed, .proceed, .proceed,
          .call 0 (.arm ⟨0, 1⟩ .read (some ())), .leave, .proceed, .proceed]) = some (past, w) ∧
        w.manager? 0 = some m ∧ w.inTurn 0 = false ∧ m.streams.get? ⟨0, 1⟩ = some r ∧
        r.socket = none ∧ r.callback = some () ∧ r.readiness.outstanding = none ∧
        r.interests = .read ∧
        w.run [.begin 0, .proceed, .proceed, .leave, .proceed, .proceed] = some (es, w') ∧
        w'.inTurn 0 = false ∧ es.any (settles 0 ⟨0, 1⟩) = false ∧
        w'.run [.begin 0, .proceed, .proceed, .proceed] = some (fs, w'') ∧
        fs.any (arms 0 ⟨0, 1⟩) = false :=
    ⟨_, _, _, _, _, _, _, _, rfl, rfl, rfl, rfl, rfl, rfl, rfl, rfl, rfl, rfl, rfl, rfl, rfl⟩
  obtain ⟨past, w, m, es, w', fs, w'', r, hr, hm, hout, hrec, hc, hcb, ho, hi, hturn, hend, hset,
    hlater, harm⟩ := hrun
  obtain ⟨-, -, hall⟩ := (no_end_lost hr hm).1 hout
  obtain ⟨honce, hsilent⟩ := (hall ⟨0, 1⟩ r () hrec hc hcb ho).2 _ es w' hturn (by simp) hend
    (by simpa using hset)
  refine ⟨past, w, es, w', fs, w'', hr, hturn, ?_, hlater, hsilent _ fs w'' hlater
    (by simpa using harm)⟩
  rw [honce, hi]
  rfl

end Moment

end BoundedStreams
