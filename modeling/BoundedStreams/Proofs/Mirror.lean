import BoundedStreams.Proofs.Account
import BoundedStreams.Proofs.Endings
import BoundedStreams.Proofs.Front

/-! The sessions of an echo service mirror the streams of its manager: a session opens with its stream and
ends with it, and a stream that lost its connection is closed in the next turn at the latest. -/

namespace BoundedStreams

namespace Table

variable {α β : Type} [DecidableEq α]

lemma keys_set_of_mem (t : Table α β) (k : α) (b : β) (h : k ∈ t.keys) :
    (t.set k b).keys = t.keys := by
  obtain ⟨es⟩ := t
  simp only [keys, set] at h ⊢
  induction es with
  | nil => simp at h
  | cons e es ih => grind [replace]

lemma nodup_keys_set {t : Table α β} (h : t.keys.Nodup) (k : α) (b : β) :
    (t.set k b).keys.Nodup := by
  by_cases hk : k ∈ t.keys
  · rwa [keys_set_of_mem t k b hk]
  · rw [keys_set_of_not_mem t k b hk]
    exact h.append (List.nodup_singleton k) (List.disjoint_singleton.mpr hk)

lemma size_set_of_mem (t : Table α β) (k : α) (b : β) (h : k ∈ t.keys) :
    (t.set k b).size = t.size := by
  rw [size_eq_length_keys, size_eq_length_keys, keys_set_of_mem t k b h]

lemma size_set_of_not_mem (t : Table α β) (k : α) (b : β) (h : k ∉ t.keys) :
    (t.set k b).size = t.size + 1 := by
  rw [size_eq_length_keys, size_eq_length_keys, keys_set_of_not_mem t k b h, List.length_append,
    List.length_singleton]

lemma size_erase {t : Table α β} (hn : t.keys.Nodup) {k : α} (hk : k ∈ t.keys) :
    (t.erase k).size + 1 = t.size := by
  have hfilter : t.keys.filter (· ≠ k) = t.keys.erase k := by
    rw [hn.erase_eq_filter]
    exact List.filter_congr fun j _ => by rw [bne, Bool.beq_eq_decide_eq, decide_not]
  have hpos := List.length_pos_of_mem hk
  rw [size_eq_length_keys, size_eq_length_keys, keys_erase, hfilter, List.length_erase_of_mem hk]
  omega

end Table

lemma Agenda.eq_ends_of_offer {κ : Type} {s : Site κ} {a : Agenda} (cb : κ)
    (hn : (a.next s).2.2 = some (.offer cb)) : a = .ends [] := by
  rcases a with (_ | ⟨⟨c, k⟩, es⟩) | (_ | ⟨h, hs⟩) | _
  · cases hn
  · simp only [next, Site.handle] at hn
    split at hn
    · cases hn
    · cases hn
    all_goals
      split at hn
      · exact absurd hn (s.evaluate_ne_offer _ cb)
      · cases hn
  · rfl
  · exact absurd hn (s.deliverEnd_ne_offer h cb)
  · cases hn

namespace Echo

open Daemon

variable {κ : Type} {t : SocketId → Talk} {me : κ} {ports : PortSource} {s : Site κ} {e e' : Echo}
  {g h : Handle}

/-! ### The counters -/

/-- The counters tell how many sessions there are, and how they came to be so many. -/
structure Tallied (e : Echo) : Prop where
  keys : e.sessions.keys.Nodup
  active : e.stats.active = e.sessions.size
  opened : e.stats.opened = e.stats.closed + e.stats.active

lemma tallied_fresh : fresh.Tallied := ⟨List.nodup_nil, rfl, rfl⟩

lemma Tallied.openSession (he : e.Tallied) (hg : e.sessions.get? g = none) :
    (e.openSession g).Tallied := by
  have hsize := e.sessions.size_set_of_not_mem g [] ((Table.get?_eq_none_iff _ g).mp hg)
  refine ⟨Table.nodup_keys_set he.keys g [], rfl, ?_⟩
  show e.stats.opened + 1 = e.stats.closed + (e.sessions.set g []).size
  rw [hsize, he.opened, he.active, Nat.add_assoc]

lemma Tallied.closeSession (he : e.Tallied) (g : Handle) : (e.closeSession g).Tallied := by
  rw [Echo.closeSession]
  split
  · next hg =>
    have hsize := Table.size_erase he.keys ((Table.mem_keys_iff _ g).mpr hg)
    refine ⟨?_, rfl, ?_⟩
    · rw [Table.keys_erase]
      exact he.keys.filter _
    · show e.stats.opened = e.stats.closed + 1 + (e.sessions.erase g).size
      rw [he.opened, he.active, ← hsize, Nat.add_right_comm, Nat.add_assoc]
  · exact he

lemma Tallied.edits (he : e.Tallied) (hedits : e.Edits g e') : e'.Tallied := by
  induction hedits with
  | refl => exact he
  | count n _ ih => exact ⟨ih.keys, ih.active, ih.opened⟩
  | @keep f l hl _ ih =>
    have hsize := f.sessions.size_set_of_mem g l ((Table.mem_keys_iff _ g).mpr hl)
    exact ⟨Table.nodup_keys_set ih.keys g l, ih.active.trans hsize.symm, ih.opened⟩
  | close _ ih => exact ih.closeSession g

section Jobs

variable {a b : Agenda} {job : Site κ → Site κ × Option (Notice κ)} {p : Site κ × Echo}
  (hw : Underway t me ports a p.1 p.2) (hjob : a.next p.1 = (some b, job p.1))

include hw hjob

lemma Underway.tallied (hp : p.2.Tallied) : (Site.serve (consumer me) job p).2.Tallied := by
  have hmirror := (hw.faithful.next hw.coherent hw.depth (congrArg Prod.fst hjob)).mirror
  have hdue := fun (cb : κ) (h : Handle) (event : StreamEvent)
    (hn : (a.next p.1).2.2 = some (.event cb h event)) => hw.faithful.due hw.coherent hn
  rw [hjob] at hmirror hdue
  rw [Site.serve]
  rcases hj : job p.1 with ⟨s₁, _ | _ | ⟨cb, h, event⟩⟩ <;> rw [hj] at hmirror hdue hjob
  · exact hp
  · show (onOffer me (s₁.enter, p.2)).2.Tallied
    rcases onOffer_cases me (s₁.enter, p.2) with ⟨-, heq⟩ | ⟨k, hk, -, hedits⟩
    · rw [heq]
      exact hp
    · refine (hp.openSession ?_).edits hedits
      -- A claimed handle was not in use, and there was no session without a stream.
      have hm : s₁.enter.manager.Coherent := (orderly_job hw.orderly hjob).coherent 0 _ rfl
      rcases s₁.enter.treats_accept hm.arena k with ⟨hne, -⟩ | ⟨-, ht⟩
      · exact absurd hk hne
      · cases ht.course with
        | claim c hr hr' he =>
          have hnone := hmirror k
          rwa [show s₁.manager.streams.get? k = none from hr, Option.isSome_none,
            Option.isSome_eq_false_iff, Option.isNone_iff_eq_none] at hnone
  · obtain ⟨r, l, -, hl, -⟩ := hdue cb h event rfl
    have hlive : (p.2.sessions.get? h).isSome = true := by rw [hl]; rfl
    exact hp.edits (edits_onEvent me event (w := (s₁.enter, p.2)) hlive)

end Jobs

lemma Tallied.turn (he : e.Tallied) (hw : (alone s ports []).Orderly)
    (hf : Faithful t me none [] s e) : (Site.turn (consumer me) (s, e)).2.Tallied := by
  obtain ⟨p, ⟨-, hp⟩, heq⟩ := Site.turn_jobs
    (I := fun a p => Underway t me ports a p.1 p.2 ∧ p.2.Tallied)
    (fun _ _ _ _ hp hjob => ⟨hp.1.serve hjob, hp.1.tallied hjob hp.2⟩)
    ⟨⟨orderly_begin hw, hf.begin⟩, he⟩
  rw [heq]
  exact hp

/-! ### The end of an orphan -/

lemma Serves.mourned {n : Network} {r : Stream κ} {l : Bytes} (hs : Serves t me n r l)
    (hc : r.socket = none) : r.Mourned :=
  ⟨hc, by rw [hs.callback]; rfl, by rw [hs.readiness]; rfl, hs.interests ▸ isEmpty_wanted l⟩

variable (me) in
/-- An answer to the end of a stream closes it, whatever the session was waiting for. -/
lemma get?_onEvent_of_orphan {r : Stream κ} {l : Bytes} {event : StreamEvent}
    (hr : s.manager.streams.get? h = some r) (hc : r.socket = none)
    (hl : e.sessions.get? h = some l) (hevent : (wanted l).has event = true) :
    (onEvent me h event (s, e)).1.manager.streams.get? h = none := by
  have hend : ∀ w : Site κ × Echo, (endSession h w).1.manager.streams.get? h = none :=
    fun w => (w.1.get?_close h h).trans (if_pos rfl)
  cases event with
  | readable =>
    have hread : s.read h chunk = (.ok [], s) := by simp only [Site.read, hr, hc]
    rw [onEvent_readable, onReadable]
    simp only [hread]
    exact hend _
  | writable =>
    have hwrite : send s h l = (none, s) := by simp only [send, Site.write, hr, hc]
    rw [onEvent_writable, onWritable]
    simp only [hl]
    split
    · next heq => cases heq
    · next heq =>
      cases heq
      cases hevent
    · next heq =>
      cases heq
      simp only [hwrite]
      exact hend _

/-- In this turn the stream under `h` is still to be told of its end, or it is closed. -/
inductive Ending (h : Handle) (s : Site κ) : Agenda → Prop where
  | waits (a : Agenda) (r : Stream κ) (hr : s.manager.streams.get? h = some r) (hc : r.socket = none)
      (ht : r.notifiedTurn ≠ some s.manager.turns)
      (hdue : h ∈ a.due ∨ (∃ es, a = .events es) ∧ h ∈ s.manager.ending) : Ending h s a
  | gone (a : Agenda) (hr : s.manager.streams.get? h = none)
      (hg : a ≠ .flush → s.manager.streams.generationAt h.index = h.generation) : Ending h s a

lemma Ending.flush (he : Ending h s .flush) : s.manager.streams.get? h = none := by
  cases he with
  | waits r hr hc ht hdue =>
    rcases hdue with hdue | ⟨⟨es, he⟩, -⟩
    · cases hdue
    · cases he
  | gone hr hg => exact hr

lemma get?_eq_none_of_descends {a a' : Arena (Stream κ)} (hd : a.Descends a') (hr : a.get? h = none) :
    a'.get? h = none := by
  by_contra hne
  obtain ⟨r', hr'⟩ := Option.ne_none_iff_exists'.mp hne
  obtain ⟨r, hr₀, -⟩ := hd.record h r' hr'
  rw [hr] at hr₀
  cases hr₀

variable (me e) in
/-- No offer brings back a stream that was closed in the same turn. -/
lemma get?_onOffer_of_gone (hm : s.manager.Coherent) (hr : s.manager.streams.get? h = none)
    (hg : s.manager.streams.generationAt h.index = h.generation) :
    (onOffer me (s, e)).1.manager.streams.get? h = none := by
  have haccept : s.accept.2.manager.streams.get? h = none ∧ s.accept.1 ≠ some h := by
    rcases s.does_accept with ⟨hnone, hkeep⟩ | ⟨k, c, hk, hclaim⟩
    · cases hkeep with
      | keep hk =>
        rw [hk.streams, hnone]
        exact ⟨hr, nofun⟩
    · obtain ⟨-, -, hothers, hgen, -⟩ := hclaim.of_claim hm
      have hne : h ≠ k := by
        rintro rfl
        rw [hg] at hgen
        exact absurd hgen.symm (by simp)
      rw [hothers h hne, hk]
      exact ⟨hr, fun heq => hne (Option.some.inj heq).symm⟩
  rcases onOffer_cases me (s, e) with ⟨-, heq⟩ | ⟨k, -, htends, -⟩
  · rw [heq]
    exact haccept.1
  · exact get?_eq_none_of_descends htends.descends haccept.1

lemma Agenda.descends_next {a : Agenda} (hm : s.manager.Coherent) (hd : s.manager.depth = 0) :
    s.manager.streams.Descends (a.next s).2.1.manager.streams := by
  obtain ⟨ds, hds, -, hall⟩ := a.did_next s hd hm.record
  exact hds.descends fun d hmem => Moment.agenda_allows_claimed (hall d hmem)

section Jobs

variable {a b : Agenda} {job : Site κ → Site κ × Option (Notice κ)} {p : Site κ × Echo}
  (hw : Underway t me ports a p.1 p.2) (hjob : a.next p.1 = (some b, job p.1))

include hw hjob

lemma Underway.serve_gone (hr : p.1.manager.streams.get? h = none)
    (hg : p.1.manager.streams.generationAt h.index = h.generation) :
    Ending h (Site.serve (consumer me) job p).1 b := by
  have hdescends := Agenda.descends_next (a := a) hw.coherent hw.depth
  have hoffer := Agenda.eq_ends_of_offer (s := p.1) (a := a)
  rw [hjob] at hdescends hoffer
  rw [Site.serve]
  have hstays : ∀ {s' : Site κ}, p.1.manager.streams.Descends s'.manager.streams → Ending h s' b :=
    fun hd => .gone b (get?_eq_none_of_descends hd hr) fun _ => (hd.generation _).trans hg
  rcases hj : job p.1 with ⟨s₁, _ | _ | ⟨cb, k, event⟩⟩ <;> rw [hj] at hdescends hoffer hjob
  · exact hstays hdescends
  · next cb =>
    have hb : b = .flush := by
      rw [hoffer cb rfl] at hjob
      exact (Option.some.inj (congrArg Prod.fst hjob)).symm
    have hm : s₁.enter.manager.Coherent := (orderly_job hw.orderly hjob).coherent 0 _ rfl
    have hgone := get?_onOffer_of_gone me p.2 hm
      (get?_eq_none_of_descends hdescends hr) ((hdescends.generation _).trans hg)
    refine .gone b ?_ fun hne => absurd hb hne
    rw [Site.leave_frame _ |>.1]
    exact hgone
  · have htends := tends_onEvent me k event (s₁.enter, p.2)
    refine hstays ?_
    rw [Site.leave_frame _ |>.1]
    exact hdescends.trans htends.descends

lemma Underway.waits_spare {r : Stream κ} (ha : a ≠ .events [])
    (hr : p.1.manager.streams.get? h = some r) (hc : r.socket = none)
    (ht : r.notifiedTurn ≠ some p.1.manager.turns)
    (hdue : h ∈ a.due ∨ (∃ es, a = .events es) ∧ h ∈ p.1.manager.ending)
    (hn : ∀ cb event, (job p.1).2 ≠ some (.event cb h event))
    (hno : ∀ hs r, a = .ends (h :: hs) → p.1.manager.streams.get? h = some r → ¬r.Mourned)
    (hx : Site.Treats h .spare p.1 (job p.1).1) :
    Ending h (Site.serve (consumer me) job p).1 b := by
  obtain ⟨l, -, hserves⟩ := hw.faithful.serves hr
  have hrest := Agenda.next_eq_rest p.1 ha
  rw [hjob] at hrest
  cases hx.course with
  | spare hr' he =>
    rcases hw.serve_cases hjob (hr'.trans hr) with ⟨cb, event, hevent, -⟩ | ⟨-, hapart⟩
    · exact absurd hevent (hn cb event)
    · have hturns := hapart.site.treats.turns.trans hx.turns
      refine .waits b r (hapart.site.record.trans (hr'.trans hr)) hc (by rwa [hturns]) ?_
      rcases hdue with hdue | ⟨⟨es, rfl⟩, hmem⟩
      · have hmem := Moment.mem_due_rest (.spare _ _ hn hno) hr (hserves.mourned hc) hdue
        rw [← hrest] at hmem
        exact .inl hmem
      · rcases es with _ | ⟨ev, es⟩
        · exact absurd rfl ha
        · exact .inr ⟨⟨es, Option.some.inj hrest⟩, hapart.site.ending.mpr (he.mpr hmem)⟩

lemma Underway.gone_told {r r' : Stream κ} {cb : κ} {event : StreamEvent}
    (hr : p.1.manager.streams.get? h = some r) (hnote : (job p.1).2 = some (.event cb h event))
    (hr' : (job p.1).1.manager.streams.get? h = some r') (hc : r'.socket = none) :
    Ending h (Site.serve (consumer me) job p).1 b := by
  have hdescends := Agenda.descends_next (a := a) hw.coherent hw.depth
  have hnotice := fun (cb : κ) (h : Handle) (event : StreamEvent)
    (hn : (a.next p.1).2.2 = some (.event cb h event)) => hw.faithful.due hw.coherent hn
  rw [hjob] at hdescends hnotice
  rcases hw.serve_cases hjob hr' with ⟨cb', event', hevent, heq⟩ | ⟨hne, -⟩
  · obtain ⟨q, l, hq, hl, -, hhas⟩ := hnotice cb' h event' hevent
    dsimp only at hq
    rw [hr'] at hq
    cases hq
    have hgone := get?_onEvent_of_orphan me (s := (job p.1).1.enter) hr' hc hl hhas
    have htends := tends_onEvent me h event' ((job p.1).1.enter, p.2)
    rw [heq]
    refine .gone b ?_ fun _ => ?_ <;> rw [Site.leave_frame _ |>.1]
    · exact hgone
    · rw [(hdescends.trans htends.descends).generation]
      exact Arena.generation_of_get? hr
  · exact absurd (by rw [hnote, told?]) hne

lemma Underway.serve_waits {r : Stream κ} (hr : p.1.manager.streams.get? h = some r)
    (hc : r.socket = none) (ht : r.notifiedTurn ≠ some p.1.manager.turns)
    (hdue : h ∈ a.due ∨ (∃ es, a = .events es) ∧ h ∈ p.1.manager.ending) :
    Ending h (Site.serve (consumer me) job p).1 b := by
  by_cases ha : a = .events []
  · subst ha
    have hb : b = .ends p.1.manager.ending := (Option.some.inj (congrArg Prod.fst hjob)).symm
    have hj : job p.1 = (p.1.takeEnding.2, none) := (congrArg Prod.snd hjob).symm
    rw [Site.serve, hj]
    refine .waits b r hr hc ht (.inl ?_)
    rw [hb]
    exact (hdue.resolve_left List.not_mem_nil).2
  obtain ⟨x, hx, hx'⟩ := Agenda.treats hw.coherent ha h
  rw [hjob] at hx hx'
  dsimp only at hx hx'
  generalize hnote : (job p.1).2 = n at hx
  cases hx with
  | postpone hs r' hr' ht' =>
    rw [hr] at hr'
    cases hr'
    exact absurd ht' ht
  | lose ev es r' c abortive hr' hc' he | free ev es r' c abortive hr' hc' he hi =>
    rw [hr] at hr'
    cases hr'
    rw [hc] at hc'
    cases hc'
  | spare _ _ hn hno => exact hw.waits_spare hjob ha hr hc ht hdue (hnote ▸ hn) hno hx'
  | notify _ cb event =>
    cases hx'.course with
    | notify _ _ r' hr' hcb ho ht' hd hr'' he =>
      rw [hr] at hr'
      cases hr'
      exact hw.gone_told hjob hr hnote hr'' hc

lemma Underway.ending (he : Ending h p.1 a) : Ending h (Site.serve (consumer me) job p).1 b := by
  cases he with
  | waits r hr hc ht hdue => exact hw.serve_waits hjob hr hc ht hdue
  | gone hr hg =>
    refine hw.serve_gone hjob hr (hg ?_)
    rintro rfl
    cases hjob

end Jobs

/-- An orphan that is still to hear of its end is closed by the next turn. -/
lemma Faithful.ended_in_turn (hf : Faithful t me none [] s e) (hw : (alone s ports []).Orderly)
    {r : Stream κ} (hr : s.manager.streams.get? h = some r) (hc : r.socket = none)
    (ht : ∀ k, r.notifiedTurn = some k → k ≤ s.manager.turns) (hend : h ∈ s.manager.ending) :
    (Site.turn (consumer me) (s, e)).1.manager.streams.get? h = none := by
  obtain ⟨p, ⟨-, hp⟩, heq⟩ := @Site.turn_jobs κ Echo (consumer me)
    (fun a p => Underway t me ports a p.1 p.2 ∧ Ending h p.1 a)
    (fun _ _ _ _ hp hjob => ⟨hp.1.serve hjob, hp.1.ending hjob hp.2⟩) s e
    ⟨⟨orderly_begin hw, hf.begin⟩, .waits _ r hr hc
      (fun hk => absurd (ht _ hk) (Nat.not_succ_le_self _)) (.inr ⟨⟨_, rfl⟩, hend⟩)⟩
  rw [heq]
  exact hp.flush

end Echo

namespace Daemon

variable {κ : Type}

open Echo

lemma tallied_run (me : κ) (o : Options) (ports : PortSource) {acts : List (Act κ)}
    (hfair : ∀ a ∈ acts, a.fair = true) :
    (((created o ports).run me acts).2.echo.getD fresh).Tallied := by
  refine (run_invariant (P := fun past d => Accountable me past d ∧ (d.echo.getD fresh).Tallied)
    (Q := fun a => a.fair = true) ?_ ⟨accountable_created me o ports, tallied_fresh⟩ acts hfair).2
  rintro past ⟨s, echo⟩ a ⟨hacc, ht⟩ ha
  refine ⟨hacc.perform ha, ?_⟩
  obtain ⟨ports', hw⟩ := hacc.orderly
  cases a with
  | network a | call c => exact ht
  | attach =>
    cases echo with
    | some e => exact ht
    | none =>
      simp only [Daemon.perform, Daemon.attach]
      rcases attach_cases me s with ⟨n, hattach⟩ | ⟨cause, hattach, -⟩ <;>
        simp only [hattach] <;> exact tallied_fresh
  | turn =>
    cases echo with
    | some e => exact ht.turn hw hacc.faithful
    | none => exact tallied_fresh

/-- The sessions of the echo service mirror the streams of its manager. Between turns there is a session
for each live stream and for nothing else, the counters agree with that, and no more was echoed than the
peers sent. A stream that lost its connection has no session any more after the next turn. -/
theorem sessions_mirror_streams {me : κ} {o : Options} {ports : PortSource} {acts : List (Act κ)}
    {past : History κ} {d : Daemon κ} (hr : (created o ports).run me acts = (past, d))
    (hfair : ∀ a ∈ acts, a.fair = true) {e : Echo} (he : d.echo = some e) :
    (∀ h, h ∈ e.sessions.keys ↔ h ∈ d.site.manager.streams.handles) ∧
      e.stats.active = d.site.manager.streams.size ∧
      e.stats.opened = e.stats.closed + e.stats.active ∧
      e.stats.bytesEchoed ≤ (created o ports).received me acts ∧
      ∃ e', (d.turn me).echo = some e' ∧ ∀ h r, d.site.manager.streams.get? h = some r →
        r.socket = none → h ∉ e'.sessions.keys := by
  have hacc := accountable_run me o ports hfair
  have htally := tallied_run me o ports hfair
  have hbytes := (created o ports : Daemon κ).account_run me hfair
  obtain ⟨ports', mvs, es, hreach⟩ := reaches_run me o ports acts
  rw [hr] at htally hbytes hreach
  rw [hr] at hacc
  rw [he, Option.getD_some] at htally
  have hf := hacc.faithful
  rw [he, Option.getD_some] at hf
  have hw := (Moment.tended_run hreach).heard.numbered.orderly
  have hkeys : ∀ h, h ∈ e.sessions.keys ↔ h ∈ d.site.manager.streams.handles := by
    intro h
    rw [Table.mem_keys_iff, hf.mirror h, Arena.handles, List.mem_map, Option.isSome_iff_exists]
    simp only [← Arena.mem_toList_iff, Prod.exists, exists_and_right, exists_eq_right]
  refine ⟨hkeys, ?_, htally.opened, ?_, ?_⟩
  · have hperm := (List.perm_ext_iff_of_nodup htally.keys (Arena.nodup_handles _)).mpr hkeys
    rw [htally.active, Table.size_eq_length_keys, hperm.length_eq, Arena.handles, List.length_map]
    rfl
  · have hstart : (created o ports : Daemon κ).account = 0 := rfl
    rw [hstart, Nat.zero_add, account, he] at hbytes
    exact (Nat.le_add_right _ _).trans ((Nat.le_add_right _ _).trans hbytes)
  · refine ⟨(Site.turn (consumer me) (d.site, e)).2, by rw [turn, he], fun h r hget hc => ?_⟩
    obtain ⟨l, -, hserves⟩ := hf.serves hget
    have hkept := (Moment.tended_run hreach).kept 0 h d.site.manager rfl
    have hend : h ∈ d.site.manager.ending :=
      (hkept.mourned r hget (hserves.mourned hc)).resolve_right List.not_mem_nil
    have hstamp := (Moment.tended_run hreach).heard.stamp 0 d.site.manager h r
    have hgone := hf.ended_in_turn hw hget hc (fun k hk => hstamp k rfl hget hk) hend
    have hlive := (Faithful.turn hw hf).mirror h
    rw [hgone, Option.isSome_none] at hlive
    rw [Table.mem_keys_iff, hlive]
    exact Bool.false_ne_true

/-- A stream hears of bytes and is evicted in one turn, in which its end is not told any more. -/
def evicting : List (Act Unit) :=
  [.attach, .network (.connect 9000), .turn, .network (.peerSend ⟨2⟩ [1, 2]),
    .network (.connect 9000), .turn]

theorem sessions_mirror_streams_evicting : ∃ past d e r,
    (created ⟨some 9000, 1, 1, 0, 0, 0, 4, 0⟩ .standard).run () evicting = (past, d) ∧
      (∀ a ∈ evicting, a.fair = true) ∧ d.echo = some e ∧
      d.site.manager.streams.get? ⟨0, 1⟩ = some r ∧ r.socket = none ∧
      ((∀ h, h ∈ e.sessions.keys ↔ h ∈ d.site.manager.streams.handles) ∧
        e.stats.active = d.site.manager.streams.size ∧
        e.stats.opened = e.stats.closed + e.stats.active ∧
        e.stats.bytesEchoed ≤ (created ⟨some 9000, 1, 1, 0, 0, 0, 4, 0⟩ .standard).received () evicting ∧
        ∃ e', (d.turn ()).echo = some e' ∧ ∀ h r, d.site.manager.streams.get? h = some r →
          r.socket = none → h ∉ e'.sessions.keys) :=
  ⟨_, _, _, _, rfl, by decide, rfl, rfl, rfl,
    @sessions_mirror_streams Unit () ⟨some 9000, 1, 1, 0, 0, 0, 4, 0⟩ .standard evicting _ _ rfl
      (by decide) _ rfl⟩

end Daemon

end BoundedStreams
