import BoundedStreams.Proofs.View

/-! Notifications are edge-triggered: each one answers an arming of its own, and a stream has at most one
of them in a turn. -/

namespace BoundedStreams.Moment

variable {κ : Type}

def arms (i : Nat) (h : Handle) : Move κ × Outcome κ → Bool
  | (.call k (.arm g _ _), _) => k = i && g = h
  | _ => false

/-- The interests registered for a stream, as the program can observe them. -/
def interests? (w : Moment κ) (i : Nat) (h : Handle) : Option Interests :=
  ((w.manager? i).bind fun m => m.streamState? h).map (·.2)

/-- The record is as its last arming left it, and if nothing is outstanding it was not notified since. -/
def ArmedBy (past : History κ) (i : Nat) (h : Handle) (r : Stream κ) (cb : κ) : Prop :=
  ∃ first between, past =
      first ++ (.call i (.arm h r.interests (some cb)), .call (.armed (.ok ()))) :: between ∧
    (∀ x ∈ between, arms i h x = false) ∧
    (r.readiness.outstanding = none → ∀ x ∈ between, notifies i h x = false)

/-- In its present turn the manager has told of the stream that now goes by `h`. -/
def Told (past : History κ) (i : Nat) (h : Handle) : Prop :=
  ∃ earlier n since, past = earlier ++ n :: since ∧ notifies i h n = true ∧
    ∀ x ∈ since, x.1 ≠ .begin i ∧ claimed? i x ≠ some h

structure Heard (past : History κ) (w : Moment κ) : Prop where
  numbered : Numbered past w
  armed : ∀ i m h r cb, w.manager? i = some m → m.streams.get? h = some r → r.callback = some cb →
    ArmedBy past i h r cb
  stamped : ∀ i m h r, w.manager? i = some m → m.streams.get? h = some r →
    (r.notifiedTurn = some m.turns ↔ Told past i h)
  stamp : ∀ i m h r t, w.manager? i = some m → m.streams.get? h = some r → r.notifiedTurn = some t →
    t ≤ m.turns
  /-- A handle bears the number of the allocation by which it was given out or told of. -/
  number : ∀ i h earlier x since, past = earlier ++ x :: since →
    notifies i h x = true ∨ claimed? i x = some h →
    h.generation = UInt32.ofNat (allocations i h.index (earlier ++ [x]))

lemma split_concat {α : Type} {l first rest : List α} {x y : α} (h : l ++ [x] = first ++ y :: rest) :
    l = first ∧ y = x ∧ rest = [] ∨ ∃ rest', rest = rest' ++ [x] ∧ l = first ++ y :: rest' := by
  rcases List.eq_nil_or_concat rest with rfl | ⟨rest', z, rfl⟩
  · obtain ⟨rfl, hx⟩ := List.append_inj' h rfl
    cases hx
    exact .inl ⟨rfl, rfl, rfl⟩
  · rw [List.concat_eq_append, ← List.cons_append, ← List.append_assoc] at h
    obtain ⟨rfl, hx⟩ := List.append_inj' h rfl
    cases hx
    exact .inr ⟨rest', List.concat_eq_append, rfl⟩

lemma mem_of_split {α : Type} {l₁ l₂ l₃ l₄ : List α} {x y : α} (h : l₁ ++ x :: l₂ = l₃ ++ y :: l₄)
    (hy : y ∉ l₂) (hne : y ≠ x) : x ∈ l₄ := by
  rcases List.append_eq_append_iff.mp h with ⟨l, -, hl⟩ | ⟨l, -, hl⟩
  · cases l with
    | nil => exact absurd (List.cons.inj hl).1.symm hne
    | cons z l =>
      obtain ⟨-, rfl⟩ := List.cons.inj hl
      simp at hy
  · cases l with
    | nil => exact absurd (List.cons.inj hl).1 hne
    | cons z l =>
      obtain ⟨-, rfl⟩ := List.cons.inj hl
      simp

lemma arms_eq_false {i : Nat} {h : Handle} {x : Move κ × Outcome κ} (hx : settles i h x = false) :
    arms i h x = false := by
  obtain ⟨mv, o⟩ := x
  rw [arms.eq_def]
  split
  · next k g want callback o he =>
    cases he
    exact hx
  · rfl

lemma number_of_live {past : History κ} {w : Moment κ} (hn : Numbered past w) {i : Nat}
    {m : Manager κ} (hm : w.manager? i = some m) {h : Handle} {r : Stream κ}
    (hr : m.streams.get? h = some r) :
    h.generation = UInt32.ofNat (allocations i h.index past) := by
  rw [← hn.counted i m hm]
  exact (Arena.generation_of_get? hr).symm

lemma allocations_append (i j : Nat) (es fs : History κ) :
    allocations i j (es ++ fs) = allocations i j es + allocations i j fs := by
  rw [allocations, List.countP_append, allocations, allocations]

lemma allocations_cons_of_notifies {i : Nat} {h : Handle} {n : Move κ × Outcome κ}
    (hn : notifies i h n = true) (j : Nat) (es : History κ) :
    allocations i j (n :: es) = allocations i j es := by
  obtain ⟨mv, o⟩ := n
  obtain ⟨cb, e, rfl⟩ := notifies_eq_true_iff.mp hn
  have hnone : claimed? i (mv, .notice i (.event cb h e)) = none := by
    rw [Option.eq_none_iff_forall_ne_some]
    intro k hk
    cases (claimed?_eq_some_iff.mp hk).2
  simp [allocations, hnone]

lemma le_of_ofNat_eq {a k : Nat} (h : UInt32.ofNat a = UInt32.ofNat (a + k)) (hk : 0 < k) :
    2 ^ 32 ≤ k := by
  have hnat := congrArg UInt32.toNat h
  rw [UInt32.toNat_ofNat', UInt32.toNat_ofNat'] at hnat
  omega

lemma ArmedBy.extend {past : History κ} {i : Nat} {h : Handle} {r r' : Stream κ} {cb : κ}
    (hb : ArmedBy past i h r cb) {x : Move κ × Outcome κ} (ha : arms i h x = false)
    (hi : r'.interests = r.interests) (hn : r'.readiness.outstanding = none →
      r.readiness.outstanding = none ∧ notifies i h x = false) :
    ArmedBy (past ++ [x]) i h r' cb := by
  obtain ⟨first, between, rfl, harm, hquiet⟩ := hb
  refine ⟨first, between ++ [x], by simp [hi], ?_, fun ho => ?_⟩
  · intro y hy
    rcases List.mem_append.mp hy with hy | hy
    · exact harm y hy
    · rwa [List.mem_singleton.mp hy]
  · intro y hy
    rcases List.mem_append.mp hy with hy | hy
    · exact hquiet (hn ho).1 y hy
    · rw [List.mem_singleton.mp hy]
      exact (hn ho).2

lemma ArmedBy.mem_since {past : History κ} {i : Nat} {h : Handle} {r : Stream κ} {cb : κ}
    (hb : ArmedBy past i h r cb) (ho : r.readiness.outstanding = none) {earlier since : History κ}
    {n : Move κ × Outcome κ} (hsplit : past = earlier ++ n :: since) (hn : notifies i h n = true) :
    (.call i (.arm h r.interests (some cb)), .call (.armed (.ok ()))) ∈ since := by
  obtain ⟨first, between, hpast, -, hquiet⟩ := hb
  -- The earlier notification does not come after the arming, so the arming comes after it.
  apply mem_of_split (hpast.symm.trans hsplit)
  · intro hx
    rw [hquiet ho n hx] at hn
    cases hn
  · rintro rfl
    cases hn

lemma Heard.armed_step {past : History κ} {w w' : Moment κ} (hw : Heard past w) {i : Nat} {h : Handle}
    {mv : Move κ} {o : Outcome κ} (hp : Passage w i h w' mv o) {m' : Manager κ} {r' : Stream κ} {cb : κ}
    (hm' : w'.manager? i = some m') (hr' : m'.streams.get? h = some r') (hc' : r'.callback = some cb) :
    ArmedBy (past ++ [(mv, o)]) i h r' cb := by
  -- Nothing but an arming gives a record a callback or other interests.
  have hold : ∀ s r, w.site? i = some s → s.manager.streams.get? h = some r → r'.callback = r.callback →
      r'.interests = r.interests → arms i h (mv, o) = false →
      (r'.readiness.outstanding = none →
        r.readiness.outstanding = none ∧ notifies i h (mv, o) = false) →
      ArmedBy (past ++ [(mv, o)]) i h r' cb := by
    intro s r hs hr hc hi ha hn
    have hb := hw.armed i _ h r cb (manager?_of_site? hs) hr (hc ▸ hc')
    exact hb.extend ha hi hn
  cases hp with
  | away mv o hm hm'' ho hcall | gone hm'' ha =>
    rw [hm''] at hm'
    cases hm'
  | born p m hi hm hs he ha =>
    rw [hm] at hm'
    cases hm'
    rw [hs, Arena.get?_empty] at hr'
    cases hr'
  | begun s hs hs' ha ha' =>
    rw [manager?_of_site? hs'] at hm'
    cases hm'
    exact hold s r' hs hr' rfl rfl rfl fun ho => ⟨ho, rfl⟩
  | taken s hs hs' ha ha' =>
    rw [manager?_of_site? hs'] at hm'
    cases hm'
    exact hold s r' hs hr' rfl rfl rfl fun ho => ⟨ho, rfl⟩
  | treated mv o s s' t hs hs' ht hb ha =>
    rw [manager?_of_site? hs'] at hm'
    cases hm'
    cases ht.course with
    | spare hr he =>
      rw [hr] at hr'
      cases hb with
      | spare _ _ hsettles hn hclaim hbegin =>
        have hlive : settles i h (mv, o) = false :=
          Bool.eq_false_iff.mpr fun hx => by rw [hsettles hx] at hr'; cases hr'
        exact hold s r' hs hr' rfl rfl (arms_eq_false hlive) fun ho => ⟨ho, hn⟩
    | touch r hr hcon hr'' he =>
      rw [hr''] at hr'
      cases hr'
      cases hb with
      | touch k reply => exact hold s r hs hr rfl rfl rfl fun ho => ⟨ho, rfl⟩
    | claim c hr hr'' he =>
      rw [hr''] at hr'
      cases hr'
      cases hc'
    | arm want callback r hr hr'' hwant he =>
      rw [hr''] at hr'
      cases hr'
      obtain rfl : callback = some cb := hc'
      cases hb with
      | arm => exact ⟨past, [], rfl, by simp, by simp⟩
    | notify callback e r hr hc ho ht hd hr'' he =>
      rw [hr''] at hr'
      cases hr'
      cases hb with
      | notify => exact hold s r hs hr rfl rfl rfl nofun
    | postpone r hr hc hr'' he =>
      rw [hr''] at hr'
      cases hr'
      cases hb with
      | postpone => exact hold s _ hs hr rfl rfl rfl fun ho => ⟨ho, rfl⟩
    | lose r c hr hc hi hr'' he =>
      rw [hr''] at hr'
      cases hr'
      cases hb with
      | lose => exact hold s r hs hr rfl rfl rfl fun ho => ⟨ho, rfl⟩
    | free r hr hr'' he =>
      rw [hr''] at hr'
      cases hr'

lemma told_concat {past : History κ} {i : Nat} {h : Handle} {x : Move κ × Outcome κ} :
    Told (past ++ [x]) i h ↔
      notifies i h x = true ∨ x.1 ≠ .begin i ∧ claimed? i x ≠ some h ∧ Told past i h := by
  constructor
  · rintro ⟨earlier, n, since, hsplit, hn, hsince⟩
    rcases split_concat hsplit with ⟨rfl, rfl, rfl⟩ | ⟨since, rfl, rfl⟩
    · exact .inl hn
    · obtain ⟨hb, hc⟩ := hsince x (by simp)
      exact .inr ⟨hb, hc, earlier, n, since, rfl, hn, fun y hy => hsince y (by simp [hy])⟩
  · rintro (hn | ⟨hb, hc, earlier, n, since, rfl, hn, hsince⟩)
    · exact ⟨past, x, [], rfl, hn, by simp⟩
    · refine ⟨earlier, n, since ++ [x], by simp, hn, fun y hy => ?_⟩
      rcases List.mem_append.mp hy with hy | hy
      · exact hsince y hy
      · rw [List.mem_singleton.mp hy]
        exact ⟨hb, hc⟩

lemma Heard.stamped_step {past : History κ} {w w' : Moment κ} (hw : Heard past w) {i : Nat}
    {h : Handle} {mv : Move κ} {o : Outcome κ} (hp : Passage w i h w' mv o) {m' : Manager κ}
    {r' : Stream κ} (hm' : w'.manager? i = some m') (hr' : m'.streams.get? h = some r') :
    (r'.notifiedTurn = some m'.turns ↔ Told (past ++ [(mv, o)]) i h) ∧
      ∀ t, r'.notifiedTurn = some t → t ≤ m'.turns := by
  have hold : ∀ m r, w.manager? i = some m → m.streams.get? h = some r →
      r'.notifiedTurn = r.notifiedTurn → m'.turns = m.turns → notifies i h (mv, o) = false →
      mv ≠ .begin i → claimed? i (mv, o) ≠ some h →
      (r'.notifiedTurn = some m'.turns ↔ Told (past ++ [(mv, o)]) i h) ∧
        ∀ t, r'.notifiedTurn = some t → t ≤ m'.turns := by
    intro m r hm hr hst htu hn hb hc
    rw [hst, htu, hw.stamped i m h r hm hr, told_concat, hn]
    exact ⟨by simp [hb, hc], fun t => hw.stamp i m h r t hm hr⟩
  cases hp with
  | away mv o hm hm'' ho hcall | gone hm'' ha =>
    rw [hm''] at hm'
    cases hm'
  | born p m hi hm hs he ha =>
    rw [hm] at hm'
    cases hm'
    rw [hs, Arena.get?_empty] at hr'
    cases hr'
  | begun s hs hs' ha ha' =>
    have hm := manager?_of_site? hs
    rw [manager?_of_site? hs'] at hm'
    cases hm'
    -- Stamps are of earlier turns now.
    have hle := fun t => hw.stamp i _ h r' t hm hr'
    refine ⟨⟨fun ht => ?_, fun ht => ?_⟩, fun t ht => Nat.le_succ_of_le (hle t ht)⟩
    · exact absurd (hle _ ht) (Nat.not_succ_le_self _)
    · rcases told_concat.mp ht with hn | ⟨hb, -⟩
      · cases hn
      · exact absurd rfl hb
  | taken s hs hs' ha ha' =>
    rw [manager?_of_site? hs'] at hm'
    cases hm'
    exact hold _ r' (manager?_of_site? hs) hr' rfl rfl rfl nofun nofun
  | treated mv o s s' t hs hs' ht hb ha =>
    have hm := manager?_of_site? hs
    rw [manager?_of_site? hs'] at hm'
    cases hm'
    have htu := ht.turns
    cases ht.course with
    | spare hr he =>
      rw [hr] at hr'
      cases hb with
      | spare _ _ hsettles hn hclaim hbegin => exact hold _ r' hm hr' rfl htu hn hbegin hclaim
    | touch r hr hcon hr'' he =>
      rw [hr''] at hr'
      cases hr'
      cases hb with
      | touch k reply => exact hold _ r hm hr rfl htu rfl nofun nofun
    | claim c hr hr'' he =>
      rw [hr''] at hr'
      cases hr'
      cases hb with
      | claim =>
        refine ⟨⟨nofun, fun ht => ?_⟩, nofun⟩
        rcases told_concat.mp ht with hn | ⟨-, hc, -⟩
        · cases hn
        · exact absurd (if_pos rfl) hc
    | arm want callback r hr hr'' hwant he =>
      rw [hr''] at hr'
      cases hr'
      cases hb with
      | arm => exact hold _ r hm hr rfl htu rfl nofun nofun
    | notify callback e r hr hc ho ht hd hr'' he =>
      rw [hr''] at hr'
      cases hr'
      cases hb with
      | notify =>
        have hst : (r.told e s.manager.turns).notifiedTurn = some s'.manager.turns :=
          congrArg some htu.symm
        refine ⟨iff_of_true hst (told_concat.mpr (.inl (by simp [notifies]))), fun t ht => ?_⟩
        rw [hst] at ht
        exact Nat.le_of_eq (Option.some.inj ht).symm
    | postpone r hr hc hr'' he =>
      rw [hr''] at hr'
      cases hr'
      cases hb with
      | postpone => exact hold _ _ hm hr rfl htu rfl nofun nofun
    | lose r c hr hc hi hr'' he =>
      rw [hr''] at hr'
      cases hr'
      cases hb with
      | lose => exact hold _ r hm hr rfl htu rfl nofun nofun
    | free r hr hr'' he =>
      rw [hr''] at hr'
      cases hr'

lemma notice_treats {w w' : Moment κ} (hw : w.Orderly) {i : Nat} {h : Handle} {mv : Move κ} {cb : κ}
    {e : StreamEvent} (hstep : w.step mv = some (.notice i (.event cb h e), w')) :
    mv = .proceed ∧
      ∃ s s', w.site? i = some s ∧ w'.site? i = some s' ∧ Site.Treats h (.notify cb e) s s' := by
  have hp := (step_cases hstep).passage hw i h
  generalize hx : Outcome.notice i (Notice.event cb h e) = o at hp
  cases hp with
  | away mv o hm hm' ho hcall => exact absurd hx.symm (ho _)
  | gone hm ha | born p m hi hm hs he ha | begun s hs hs' ha ha' | taken s hs hs' ha ha' => cases hx
  | treated mv o s s' t hs hs' ht hb ha =>
    subst hx
    cases hb with
    | spare mv o hsettles hn hclaim hbegin => simp [notifies] at hn
    | notify => exact ⟨rfl, s, s', hs, hs', ht⟩

lemma claim_treats {w w' : Moment κ} (hw : w.Orderly) {i : Nat} {h : Handle}
    (hstep : w.step (.call i .accept) = some (.call (.claimed (some h)), w')) :
    ∃ s s', w.site? i = some s ∧ w'.site? i = some s' ∧ Site.Treats h .claim s s' := by
  have hp := (step_cases hstep).passage hw i h
  generalize hmv : (Move.call i .accept : Move κ) = mv at hp
  generalize ho : (Outcome.call (.claimed (some h)) : Outcome κ) = o at hp
  cases hp with
  | away mv o hm hm' hn hcall => exact absurd hmv.symm (hcall _)
  | gone hm ha | born p m hi hm hs he ha | begun s hs hs' ha ha' | taken s hs hs' ha ha' => cases hmv
  | treated mv o s s' t hs hs' ht hb ha =>
    subst hmv ho
    cases hb with
    | spare mv o hsettles hn hclaim hbegin => exact absurd (if_pos rfl) hclaim
    | claim => exact ⟨s, s', hs, hs', ht⟩

lemma Heard.number_step {past : History κ} {w w' : Moment κ} (hw : Heard past w) {i : Nat}
    {h : Handle} {mv : Move κ} {o : Outcome κ} (hs : w.step mv = some (o, w'))
    (hx : notifies i h (mv, o) = true ∨ claimed? i (mv, o) = some h) :
    h.generation = UInt32.ofNat (allocations i h.index (past ++ [(mv, o)])) := by
  have hnum := hw.numbered.step hs
  rcases hx with hn | hc
  · obtain ⟨cb, e, rfl⟩ := notifies_eq_true_iff.mp hn
    obtain ⟨-, s, s', -, hs', ht⟩ := notice_treats hw.numbered.orderly hs
    cases ht.course with
    | notify cb e r hr hc ho ht' hd hr' he =>
      exact number_of_live hnum (manager?_of_site? hs') hr'
  · obtain ⟨rfl, rfl⟩ := claimed?_eq_some_iff.mp hc
    obtain ⟨s, s', -, hs', ht⟩ := claim_treats hw.numbered.orderly hs
    cases ht.course with
    | claim c hr hr' he => exact number_of_live hnum (manager?_of_site? hs') hr'

lemma Heard.step {past : History κ} {w w' : Moment κ} (hw : Heard past w) {mv : Move κ}
    {o : Outcome κ} (hs : w.step mv = some (o, w')) : Heard (past ++ [(mv, o)]) w' := by
  have hp := fun i h => (step_cases hs).passage hw.numbered.orderly i h
  refine ⟨hw.numbered.step hs, fun i m h r cb hm hr hc => hw.armed_step (hp i h) hm hr hc,
    fun i m h r hm hr => (hw.stamped_step (hp i h) hm hr).1,
    fun i m h r t hm hr => (hw.stamped_step (hp i h) hm hr).2 t, ?_⟩
  intro i h earlier x since hsplit hx
  rcases split_concat hsplit with ⟨rfl, rfl, rfl⟩ | ⟨since, rfl, rfl⟩
  · exact hw.number_step hs hx
  · exact hw.number i h earlier x since rfl hx

lemma heard_initial (ports : PortSource) : Heard [] (initial ports : Moment κ) where
  numbered := numbered_initial ports
  armed i m h r cb hm := by simp [manager?, initial] at hm
  stamped i m h r hm := by simp [manager?, initial] at hm
  stamp i m h r t hm := by simp [manager?, initial] at hm
  number i h earlier x since hsplit := by simp at hsplit

lemma heard_run {ports : PortSource} {mvs : List (Move κ)} {es : History κ} {w : Moment κ}
    (hr : (initial ports).run mvs = some (es, w)) : Heard es w :=
  run_invariant (fun _ _ _ _ _ hw hs => hw.step hs) (heard_initial ports) hr

lemma Heard.come_round {past : History κ} {w : Moment κ} (hw : Heard past w) {i : Nat} {h : Handle}
    {earlier since : History κ} {n x : Move κ × Outcome κ} (hsplit : past = earlier ++ n :: since)
    (hn : notifies i h n = true) (hx : x ∈ since) (hclaim : claimed? i x = some h) :
    2 ^ 32 ≤ allocations i h.index since := by
  obtain ⟨mid, rest, rfl⟩ := List.append_of_mem hx
  have hold := hw.number i h earlier n _ hsplit (.inl hn)
  have hnew := hw.number i h (earlier ++ n :: mid) x rest (by simp [hsplit]) (.inr hclaim)
  have hone : allocations i h.index [x] = 1 := by simp [allocations, hclaim]
  rw [hold, allocations_append, allocations_append, allocations_append, Nat.add_assoc,
    allocations_cons_of_notifies hn, allocations_cons_of_notifies hn, hone] at hnew
  have hnone : allocations i h.index ([] : History κ) = 0 := rfl
  have hge := le_of_ofNat_eq (a := allocations i h.index earlier)
    (k := allocations i h.index mid + 1) (by simpa [hnone] using hnew) (Nat.succ_pos _)
  have hcons := allocations_append i h.index [x] rest
  rw [List.singleton_append, hone] at hcons
  rw [allocations_append, hcons]
  omega

/-- Each notification tells of interests that are registered, calls what the last arming registered, and
stands alone after that arming. An earlier one under the same handle belongs to an earlier turn, unless
the handle has come round. -/
theorem edge_triggered {ports : PortSource} {mvs : List (Move κ)} {past : History κ}
    {w w' : Moment κ} {mv : Move κ} {i : Nat} {h : Handle} {cb : κ} {e : StreamEvent}
    (hr : (initial ports).run mvs = some (past, w))
    (hs : w.step mv = some (.notice i (.event cb h e), w')) :
    ∃ want first between, past =
        first ++ (.call i (.arm h want (some cb)), .call (.armed (.ok ()))) :: between ∧
      (∀ x ∈ between, arms i h x = false ∧ notifies i h x = false) ∧
      w.interests? i h = some want ∧ want.has e = true ∧
      ∀ earlier n since, past = earlier ++ n :: since → notifies i h n = true →
        (.call i (.arm h want (some cb)), .call (.armed (.ok ()))) ∈ since ∧
        ((∃ x ∈ since, x.1 = .begin i) ∨ 2 ^ 32 ≤ allocations i h.index since) := by
  have hheard := heard_run hr
  obtain ⟨-, s, s', hsite, -, ht⟩ := notice_treats hheard.numbered.orderly hs
  have hm := ((w.site?_eq_some_iff i s).mp hsite).1
  cases ht.course with
  | notify cb e r hrec hc ho hturn hd hrec' he =>
    have hb := hheard.armed i _ h r cb hm hrec hc
    have hsince : ∀ earlier n since, past = earlier ++ n :: since → notifies i h n = true →
        (.call i (.arm h r.interests (some cb)), .call (.armed (.ok ()))) ∈ since :=
      fun _ _ _ => hb.mem_since ho
    obtain ⟨first, between, hpast, harm, hquiet⟩ := hb
    refine ⟨r.interests, first, between, hpast, fun x hx => ⟨harm x hx, hquiet ho x hx⟩, ?_,
      Stream.has_of_due? hd, fun earlier n since hsplit hn =>
        ⟨hsince earlier n since hsplit hn, ?_⟩⟩
    · simp [interests?, hm, Manager.streamState?, hrec]
    · by_contra hno
      simp only [not_or, not_exists, not_and, Nat.not_le] at hno
      have hnot := mt (hheard.stamped i _ h r hm hrec).mpr hturn
      -- So the handle was given out again since then.
      obtain ⟨x, hx, hclaim⟩ : ∃ x ∈ since, claimed? i x = some h := by
        by_contra hnone
        simp only [not_exists, not_and] at hnone
        exact hnot ⟨earlier, n, since, hsplit, hn, fun x hx => ⟨hno.1 x hx, hnone x hx⟩⟩
      have hge := hheard.come_round hsplit hn hx hclaim
      omega

theorem edge_triggered_rearmed : ∃ past w w',
    (initial .standard).run (arrival ++ [.begin 0, .proceed, .proceed, .proceed, .proceed,
        .call 0 .accept, .call 0 (.arm ⟨0, 1⟩ .read (some ())), .leave, .proceed,
        .network (.peerSend ⟨2⟩ [7]), .begin 0, .proceed, .call 0 (.arm ⟨0, 1⟩ .read (some ())), .leave,
        .proceed, .proceed, .proceed, .proceed, .begin 0]) = some (past, w) ∧
      w.step .proceed = some (.notice 0 (.event () ⟨0, 1⟩ .readable), w') ∧
      w.interests? 0 ⟨0, 1⟩ = some .read ∧
      ∀ earlier n since, past = earlier ++ n :: since → notifies 0 ⟨0, 1⟩ n = true →
        ∃ x ∈ since, x.1 = .begin 0 := by
  have hrun : ∃ past w w',
      (initial .standard).run (arrival ++ [.begin 0, .proceed, .proceed, .proceed, .proceed,
          .call 0 .accept, .call 0 (.arm ⟨0, 1⟩ .read (some ())), .leave, .proceed,
          .network (.peerSend ⟨2⟩ [7]), .begin 0, .proceed, .call 0 (.arm ⟨0, 1⟩ .read (some ())),
          .leave, .proceed, .proceed, .proceed, .proceed, .begin 0]) = some (past, w) ∧
        w.step .proceed = some (.notice 0 (.event () ⟨0, 1⟩ .readable), w') ∧
        allocations 0 0 past = 1 ∧ w.interests? 0 ⟨0, 1⟩ = some .read :=
    ⟨_, _, _, rfl, rfl, rfl, rfl⟩
  obtain ⟨past, w, w', hr, hs, hfew, hint⟩ := hrun
  obtain ⟨want, first, between, -, -, -, -, hturn⟩ := edge_triggered hr hs
  refine ⟨past, w, w', hr, hs, hint, fun earlier n since hsplit hn => ?_⟩
  have hle : allocations 0 0 since ≤ allocations 0 0 past := by
    rw [hsplit, List.append_cons, allocations_append]
    exact Nat.le_add_left _ _
  exact (hturn earlier n since hsplit hn).2.resolve_right
    (Nat.not_le.mpr (Nat.lt_of_le_of_lt hle (by rw [hfew]; decide)))

end BoundedStreams.Moment
