import BoundedStreams.Proofs.Ledger
import Mathlib.Algebra.Group.Nat.Defs

/-! The life of a handle: active, perhaps orphaned, then gone for good. Slots are used again, but as
long as a slot's generation has not come round an old handle finds nothing in it. -/

namespace BoundedStreams

def Deed.claimed? : Deed → Option Handle
  | .claim h _ => some h
  | _ => none

/-- Every record of the second arena is one of the first, which may have lost its socket. -/
structure Arena.Descends {κ : Type} (a a' : Arena (Stream κ)) : Prop where
  generation : ∀ j, a'.generationAt j = a.generationAt j
  record : ∀ h r', a'.get? h = some r' →
    ∃ r, a.get? h = some r ∧ (r.socket = none → r'.socket = none)

namespace Arena

variable {κ : Type}

lemma Descends.refl (a : Arena (Stream κ)) : a.Descends a := ⟨fun _ => rfl, fun _ r hr => ⟨r, hr, id⟩⟩

lemma Descends.trans {a₁ a₂ a₃ : Arena (Stream κ)} (h : a₁.Descends a₂) (h' : a₂.Descends a₃) :
    a₁.Descends a₃ := by
  refine ⟨fun j => (h'.generation j).trans (h.generation j), fun k r₃ hr₃ => ?_⟩
  obtain ⟨r₂, hr₂, hs₂⟩ := h'.record k r₃ hr₃
  obtain ⟨r₁, hr₁, hs₁⟩ := h.record k r₂ hr₂
  exact ⟨r₁, hr₁, fun hn => hs₂ (hs₁ hn)⟩

lemma descends_update (a : Arena (Stream κ)) (k : Handle) {f : Stream κ → Stream κ}
    (hf : ∀ r, r.socket = none → (f r).socket = none) : a.Descends (a.update k f) := by
  refine ⟨fun j => generationAt_update a k f j, fun h r' hr' => ?_⟩
  rw [get?_update] at hr'
  split at hr'
  · obtain ⟨r, hr, rfl⟩ := Option.map_eq_some_iff.mp hr'
    exact ⟨r, hr, hf r⟩
  · exact ⟨r', hr', id⟩

lemma descends_remove (a : Arena (Stream κ)) (k : Handle) : a.Descends (a.remove k) := by
  refine ⟨fun j => generationAt_remove a k j, fun h r' hr' => ?_⟩
  rw [get?_remove] at hr'
  split at hr'
  · cases hr'
  · exact ⟨r', hr', id⟩

end Arena

namespace Site

variable {κ : Type}

lemma Does.descends {d : Deed} {s s' : Site κ} (h : Does d s s') (hd : d.claimed? = none) :
    s.manager.streams.Descends s'.manager.streams := by
  cases h with
  | keep h | enqueue c hd' ha h | withdraw c hc h | refuse c hd' h | enter h | flush h =>
    rw [h.streams]
    exact .refl _
  | tend k f hf h =>
    rw [h.streams]
    exact Arena.descends_update _ k fun r hr => (hf r).trans hr
  | shed p b hb h =>
    rw [h.streams, (abort_frame _ _).1]
    exact .refl _
  | claim k a p b hb hc hi h => cases hd
  | close k r c hr hc h =>
    rw [h.streams, (abort_frame _ _).1]
    exact Arena.descends_remove _ k
  | dismiss k r hr hc h =>
    rw [h.streams]
    exact Arena.descends_remove _ k
  | orphan k r c ab hd' hr hc hi h =>
    rw [h.streams]
    exact Arena.descends_update _ k fun r _ => rfl
  | free k r c ab hd' hr hc hi h =>
    rw [h.streams]
    exact (Arena.descends_update _ k fun r _ => rfl).trans (Arena.descends_remove _ k)
  | leave h =>
    rw [h.streams, s.leave_frame.1]
    exact .refl _

lemma Did.descends {ds : List Deed} {s s' : Site κ} (h : Did ds s s')
    (hd : ∀ d ∈ ds, d.claimed? = none) : s.manager.streams.Descends s'.manager.streams := by
  induction h with
  | nil s => exact .refl _
  | @cons d ds s s₁ s' h _ ih =>
    exact (h.descends (hd d (by simp))).trans (ih fun e he => hd e (by simp [he]))

lemma Does.of_claim {k : Handle} {c : SocketId} {s s' : Site κ} (h : Does (.claim k c) s s')
    (hm : s.manager.Coherent) :
    s.manager.streams.get? k = none ∧
      (∃ r, s'.manager.streams.get? k = some r ∧ r.socket = some c) ∧
      (∀ g, g ≠ k → s'.manager.streams.get? g = s.manager.streams.get? g) ∧
      k.generation = s.manager.streams.generationAt k.index + 1 ∧
      ∀ j, s'.manager.streams.generationAt j =
        if k.index = j then s.manager.streams.generationAt j + 1
        else s.manager.streams.generationAt j := by
  cases h with
  | claim k a p b hb hc hi h =>
    have hget := Arena.get?_insert hm.arena (.claimed p.socket s.now)
    have hnone := Arena.get?_insert_self_eq_none hm.arena (.claimed p.socket s.now)
    have hgen := Arena.insert_generation s.manager.streams (.claimed p.socket s.now)
    have hat := Arena.generationAt_insert hm.arena (.claimed p.socket s.now)
    rw [hi] at hget hnone hgen hat
    rw [h.streams]
    refine ⟨hnone, ⟨_, (hget k).trans (if_pos rfl), rfl⟩, fun g hg => ?_, hgen, hat⟩
    exact (hget g).trans (if_neg (Ne.symm hg))

lemma Does.get?_ne_none {d : Deed} {s s' : Site κ} (hdoes : Does d s s') (hm : s.manager.Coherent)
    {k : Handle} (hne : d.removed? ≠ some k) (hk : s.manager.streams.get? k ≠ none) :
    s'.manager.streams.get? k ≠ none := by
  cases hdoes with
  | keep h | enqueue c hd' ha h | withdraw c hc h | refuse c hd' h | enter h | flush h =>
    rw [h.streams]
    exact hk
  | tend j f hf h =>
    rw [h.streams]
    simp only [put, Manager.updateStream, Arena.get?_update]
    split
    · simpa using hk
    · exact hk
  | shed p b hb h =>
    rw [h.streams, (abort_frame _ _).1]
    exact hk
  | claim j a p b hb hc hi h =>
    have hcl := (Does.claim j a p b hb hc hi h).of_claim hm
    rw [hcl.2.2.1 k fun he => hk (he ▸ hcl.1)]
    exact hk
  | close j r c hr hc h =>
    have hj : j ≠ k := fun he => hne (congrArg some he)
    rw [h.streams, (abort_frame _ _).1]
    simp only [put, Arena.get?_remove, if_neg hj]
    exact hk
  | dismiss j r hr hc h =>
    have hj : j ≠ k := fun he => hne (congrArg some he)
    rw [h.streams]
    simp only [put, Arena.get?_remove, if_neg hj]
    exact hk
  | orphan j r c ab hd' hr hc hi h =>
    rw [h.streams]
    simp only [detached, Arena.get?_update]
    split
    · simpa using hk
    · exact hk
  | free j r c ab hd' hr hc hi h =>
    have hj : j ≠ k := fun he => hne (congrArg some he)
    rw [h.streams]
    simp only [put, detached, Arena.get?_remove, Arena.get?_update, if_neg hj]
    exact hk
  | leave h =>
    rw [h.streams, s.leave_frame.1]
    exact hk

lemma Did.removed {ds : List Deed} {s s' : Site κ} (h : Did ds s s') (hm : s.manager.Coherent)
    (hx : ∀ c, (ds.flatMap Deed.admitted).count c + s.manager.held.count c ≤ 1) {k : Handle}
    (hk : s.manager.streams.get? k ≠ none) (hk' : s'.manager.streams.get? k = none) :
    ∃ d ∈ ds, d.removed? = some k := by
  by_contra hno
  refine (h.invariant (P := fun s => s.manager.streams.get? k ≠ none) hm hx hk ?_).2 hk'
  exact fun d hmem _ _ hdoes hm hk => hdoes.get?_ne_none hm (fun he => hno ⟨d, hmem, he⟩) hk

end Site

namespace Moment

variable {κ : Type}

/-- The state of a stream as the program can observe it. -/
def phase? (w : Moment κ) (i : Nat) (h : Handle) : Option StreamState :=
  ((w.manager? i).bind fun m => m.streamState? h).map (·.1)

/-- How far a stream has come in its life. -/
def lateness : Option StreamState → Nat
  | some .active => 0
  | some .orphaned => 1
  | none => 2

/-- The handle that a move got from a manager. -/
def claimed? (i : Nat) : Move κ × Outcome κ → Option Handle
  | (.call k .accept, .call (.claimed h)) => if k = i then h else none
  | _ => none

/-- How often a manager has given out slot `j`. -/
def allocations (i j : Nat) (es : History κ) : Nat :=
  es.countP fun e => (claimed? i e).any (·.index = j)

lemma phase?_eq_none_iff {w : Moment κ} {i : Nat} {m : Manager κ} (hm : w.manager? i = some m)
    (h : Handle) : w.phase? i h = none ↔ m.streams.get? h = none := by
  simp [phase?, hm, Manager.streamState?]

lemma lateness_le_two (p : Option StreamState) : lateness p ≤ 2 := by
  rcases p with _ | _ | _ <;> simp [lateness]

lemma lateness_phase? {w : Moment κ} {i : Nat} {m : Manager κ} (hm : w.manager? i = some m)
    (h : Handle) : lateness (w.phase? i h) =
      (m.streams.get? h).elim 2 fun r => if r.socket = none then 1 else 0 := by
  simp only [phase?, hm, Manager.streamState?, Option.bind_some, Option.map_map]
  cases m.streams.get? h with
  | none => rfl
  | some r =>
    simp only [Option.map_some, Function.comp, Option.elim_some, Stream.state]
    cases r.socket <;> rfl

lemma lateness_le_of_descends {w w' : Moment κ} {i : Nat} {m m' : Manager κ}
    (hm : w.manager? i = some m) (hm' : w'.manager? i = some m')
    (hd : m.streams.Descends m'.streams) (h : Handle) :
    lateness (w.phase? i h) ≤ lateness (w'.phase? i h) := by
  rw [lateness_phase? hm, lateness_phase? hm']
  cases hr' : m'.streams.get? h with
  | none =>
    cases m.streams.get? h with
    | none => exact Nat.le_refl _
    | some r =>
      simp only [Option.elim_some, Option.elim_none]
      split <;> omega
  | some r' =>
    obtain ⟨r, hr, hs⟩ := hd.record h r' hr'
    rw [hr]
    simp only [Option.elim_some]
    by_cases hn : r.socket = none
    · apply Nat.le_of_eq
      rw [if_pos hn, if_pos (hs hn)]
    · rw [if_neg hn]
      exact Nat.zero_le _

/-! ### What a step does to the records of a manager -/

lemma call_allows_claimed {s : Site κ} {c : Call Handle κ} {d : Deed} (h : c.Allows s d)
    (hc : c ≠ .accept) : d.claimed? = none := by
  cases c <;> cases d <;> simp_all [Call.Allows, Deed.claimed?]

lemma agenda_allows_claimed {s : Site κ} {a : Agenda} {d : Deed} (h : a.Allows s d) :
    d.claimed? = none := by
  rcases a with (_ | e) | _ | _ <;>
    cases d <;> simp_all [Agenda.Allows, SocketEvent.Allows, Deed.claimed?]

structure Claims (k : Handle) (a a' : Arena (Stream κ)) : Prop where
  vacant : a.get? k = none
  made : ∃ r, a'.get? k = some r ∧ r.socket ≠ none
  others : ∀ g, g ≠ k → a'.get? g = a.get? g
  number : k.generation = a.generationAt k.index + 1
  generation : ∀ j, a'.generationAt j =
    if k.index = j then a.generationAt j + 1 else a.generationAt j

/-- What becomes of the records of manager `i` in a step. -/
inductive Course (w : Moment κ) (i : Nat) (e : Move κ × Outcome κ) : Manager κ → Prop where
  | born (o : Options) (ports : PortSource) (hi : w.managers.length = i) (he : claimed? i e = none) :
      Course w i e (Manager.create o ports).1
  | descends (m m' : Manager κ) (hm : w.manager? i = some m) (he : claimed? i e = none)
      (hd : m.streams.Descends m'.streams) : Course w i e m'
  | claims (m m' : Manager κ) (k : Handle) (hm : w.manager? i = some m) (he : claimed? i e = some k)
      (hc : Claims k m.streams m'.streams) : Course w i e m'

lemma claimed?_eq_none {mv : Move κ} (hmv : ∀ k, mv ≠ .call k .accept) (i : Nat) (o : Outcome κ) :
    claimed? i (mv, o) = none := by
  cases mv with
  | call k c =>
    cases c with
    | accept => exact absurd rfl (hmv k)
    | _ => rfl
  | _ => rfl

lemma claims_of_does {k : Handle} {c : SocketId} {s s' : Site κ} (h : Site.Does (.claim k c) s s')
    (hm : s.manager.Coherent) : Claims k s.manager.streams s'.manager.streams := by
  obtain ⟨hv, ⟨r, hr, hc⟩, ho, hn, hg⟩ := h.of_claim hm
  exact ⟨hv, ⟨r, hr, by simp [hc]⟩, ho, hn, hg⟩

lemma course_call {w : Moment κ} (hw : w.Orderly) {i j : Nat} {s : Site κ} (c : Call Handle κ)
    (hs : w.site? j = some s) {m : Manager κ}
    (hm : (w.put j (c.perform s).2).manager? i = some m) :
    Course w i (.call j c, .call (c.perform s).1) m := by
  have hmj := manager?_of_site? hs
  rw [manager?_put (lt_of_manager? hmj)] at hm
  split at hm
  · next hij =>
    subst hij
    cases hm
    by_cases hc : c = .accept
    · subst hc
      rcases s.does_accept with ⟨hnone, hd⟩ | ⟨k, a, hsome, hd⟩
      · refine .descends _ _ hmj ?_ (hd.descends rfl)
        simp [claimed?, Call.perform, hnone]
      · refine .claims _ _ k hmj ?_ (claims_of_does hd (hw.coherent_site hs))
        simp [claimed?, Call.perform, hsome]
    · obtain ⟨ds, hds, hall⟩ := Site.did_call s c
      refine .descends _ _ hmj (claimed?_eq_none ?_ _ _)
        (hds.descends fun d hd => call_allows_claimed (hall d hd) hc)
      intro k he
      cases he
      exact hc rfl
  · next hij =>
    refine .descends m m hm ?_ (.refl _)
    cases c <;> simp [claimed?, Call.perform, hij]

lemma step_course {w w' : Moment κ} {mv : Move κ} {o : Outcome κ} (hw : w.Orderly)
    (h : Step w mv o w') {i : Nat} {m : Manager κ} (hm : w'.manager? i = some m) :
    Course w i (mv, o) m := by
  -- Only a call can claim: what other moves do to the records follows from the deeds they allow.
  by_cases hmv : ∀ k c, mv ≠ .call k c
  · have hnone := claimed?_eq_none (fun k => hmv k .accept) i o
    have hf := (h.stage hw).fate hw i
    rw [hm] at hf
    generalize hx : some m = x at hf
    cases hf with
    | same => exact .descends m m hx.symm hnone (.refl _)
    | born p ports hi =>
      cases hx
      exact .born p ports hi hnone
    | gone he => cases hx
    | begun m' hm' =>
      cases hx
      exact .descends m' _ hm' hnone (.refl _)
    | did s s' ds hs hm' hx' hds hall =>
      cases hx
      refine .descends _ _ (manager?_of_site? hs) hnone (hds.descends fun d hd => ?_)
      have ha := hall d hd
      cases mv with
      | call k c => exact absurd rfl (hmv k c)
      | proceed =>
        rcases ha with rfl | ⟨f, -, -, ha⟩
        · rfl
        · exact agenda_allows_claimed ha
      | leave =>
        obtain rfl : d = .leave := ha
        rfl
      | network a | note n | create p | release k | begin k => exact absurd ha id
  · simp only [ne_eq, not_forall, not_not] at hmv
    obtain ⟨j, c, rfl⟩ := hmv
    cases h with
    | call _ _ s hact hs => exact course_call hw c hs hm

/-! ### Generations count allocations -/

lemma allocations_concat (i j : Nat) (es : History κ) (e : Move κ × Outcome κ) :
    allocations i j (es ++ [e]) =
      allocations i j es + if (claimed? i e).any (·.index = j) then 1 else 0 := by
  rw [allocations, List.countP_append, List.countP_singleton, allocations]

lemma allocations_le_append (i j : Nat) (es fs : History κ) :
    allocations i j es ≤ allocations i j (es ++ fs) := by
  rw [allocations, allocations, List.countP_append]
  exact Nat.le_add_right _ _

/-- A slot's generation is the number of times it was given out, up to what a generation can count. -/
structure Numbered (es : History κ) (w : Moment κ) : Prop where
  orderly : w.Orderly
  counted : ∀ i m, w.manager? i = some m →
    ∀ j, m.streams.generationAt j = UInt32.ofNat (allocations i j es)
  unborn : ∀ i, w.managers.length ≤ i → ∀ j, allocations i j es = 0

lemma Step.length_le {w w' : Moment κ} {mv : Move κ} {o : Outcome κ} (h : Step w mv o w') :
    w.managers.length ≤ w'.managers.length := by
  cases h with
  | network a hact | note n hact => exact Nat.le_refl _
  | create o hact =>
    simp only [Moment.create, List.length_append]
    exact Nat.le_add_right _ _
  | call i c s hact hs | release i s hact hi hs | begin i s hact hi hs | leave i a n fs s hf hs =>
    exact Nat.le_of_eq List.length_set.symm
  | proceed i agenda frames s hf hs =>
    rw [Moment.proceed]
    rcases agenda.next s with ⟨_ | a, s₁, _ | n⟩ <;> exact Nat.le_of_eq List.length_set.symm

lemma Step.lt_of_claimed? {w w' : Moment κ} {mv : Move κ} {o : Outcome κ} (h : Step w mv o w')
    {i : Nat} {k : Handle} (hk : claimed? i (mv, o) = some k) : i < w.managers.length := by
  cases h with
  | call j c s hact hs =>
    cases c with
    | accept =>
      simp only [claimed?, Call.perform] at hk
      split at hk
      · next hij => exact hij ▸ lt_of_manager? (manager?_of_site? hs)
      · cases hk
    | _ => cases hk
  | _ => cases hk

lemma numbered_initial (ports : PortSource) : Numbered [] (initial ports : Moment κ) :=
  ⟨orderly_initial ports, fun i m hm => by simp [manager?, initial] at hm, fun _ _ _ => rfl⟩

lemma Numbered.step {w w' : Moment κ} {past : History κ} {mv : Move κ} {o : Outcome κ}
    (hn : Numbered past w) (hs : w.step mv = some (o, w')) : Numbered (past ++ [(mv, o)]) w' := by
  have h := step_cases hs
  refine ⟨(h.stage hn.orderly).orderly hn.orderly, fun i m hm j => ?_, fun i hi j => ?_⟩
  · rw [allocations_concat]
    cases step_course hn.orderly h hm with
    | born p ports hi he =>
      rw [he, hn.unborn i (Nat.le_of_eq hi)]
      rfl
    | descends m₀ _ hm₀ he hd =>
      rw [he, hd.generation, hn.counted i m₀ hm₀]
      rfl
    | claims m₀ _ k hm₀ he hc =>
      rw [he, hc.generation, hn.counted i m₀ hm₀]
      simp only [Option.any_some, decide_eq_true_eq]
      split
      · rw [UInt32.ofNat_add]
        rfl
      · rfl
  · have hle := Nat.le_trans h.length_le hi
    rw [allocations_concat, hn.unborn i hle]
    cases hc : claimed? i (mv, o) with
    | none => rfl
    | some k => exact absurd (h.lt_of_claimed? hc) (Nat.not_lt.mpr hle)

lemma numbered_run {ports : PortSource} {mvs : List (Move κ)} {es : History κ} {w : Moment κ}
    (hr : (initial ports).run mvs = some (es, w)) : Numbered es w :=
  run_invariant (P := Numbered) (fun _ _ _ _ _ hn hs => hn.step hs)
    (numbered_initial ports) hr

/-! ### A handle that was given out -/

structure Issued (i : Nat) (h : Handle) (es : History κ) (w : Moment κ) : Prop where
  numbered : Numbered es w
  number : ∃ n, h.generation = UInt32.ofNat n ∧ 1 ≤ n ∧ n ≤ allocations i h.index es

lemma Issued.step {w w' : Moment κ} {past : History κ} {mv : Move κ} {o : Outcome κ} {i : Nat}
    {h : Handle} (hi : Issued i h past w) (hs : w.step mv = some (o, w')) :
    Issued i h (past ++ [(mv, o)]) w' := by
  obtain ⟨n, hg, hpos, hle⟩ := hi.number
  exact ⟨hi.numbered.step hs, n, hg, hpos, Nat.le_trans hle (allocations_le_append _ _ _ _)⟩

/-- A handle is not given out again before the generations of its slot have come round. -/
lemma Issued.ne_of_claims {w : Moment κ} {past : History κ} {i : Nat} {h k : Handle}
    {m m' : Manager κ} (hi : Issued i h past w) (hm : w.manager? i = some m)
    (hc : Claims k m.streams m'.streams) (hfew : allocations i k.index past + 1 < 2 ^ 32) :
    h ≠ k := by
  rintro rfl
  -- Both generations stand for numbers below 2 ^ 32, of which that of `h` is the smaller one.
  obtain ⟨n, hg, -, hle⟩ := hi.number
  have hn := hc.number
  rw [hi.numbered.counted i m hm, hg] at hn
  have hone : (1 : UInt32) = UInt32.ofNat 1 := rfl
  rw [hone, ← UInt32.ofNat_add] at hn
  have hnat := congrArg UInt32.toNat hn
  rw [UInt32.toNat_ofNat', UInt32.toNat_ofNat'] at hnat
  omega

lemma Issued.lateness_step {w w' : Moment κ} {past : History κ} {mv : Move κ} {o : Outcome κ}
    {i : Nat} {h : Handle} (hi : Issued i h past w) (hs : w.step mv = some (o, w'))
    (hfew : allocations i h.index (past ++ [(mv, o)]) < 2 ^ 32) :
    lateness (w.phase? i h) ≤ lateness (w'.phase? i h) := by
  cases hm' : w'.manager? i with
  | none =>
    have hnone : w'.phase? i h = none := by simp [phase?, hm']
    rw [hnone]
    exact lateness_le_two _
  | some m' =>
    cases step_course hi.numbered.orderly (step_cases hs) hm' with
    | born p ports hlen he =>
      obtain ⟨n, -, hpos, hle⟩ := hi.number
      rw [hi.numbered.unborn i (Nat.le_of_eq hlen)] at hle
      omega
    | descends m _ hm he hd => exact lateness_le_of_descends hm hm' hd h
    | claims m _ k hm he hc =>
      have hne : h ≠ k := by
        by_cases hk : k.index = h.index
        · apply hi.ne_of_claims hm hc
          rw [allocations_concat, he] at hfew
          simpa [hk] using hfew
        · rintro rfl
          exact hk rfl
      apply Nat.le_of_eq
      rw [lateness_phase? hm, lateness_phase? hm', hc.others h hne]

lemma Issued.run {w w' : Moment κ} {past es : History κ} {mvs : List (Move κ)} {i : Nat} {h : Handle}
    (hi : Issued i h past w) (hr : w.run mvs = some (es, w'))
    (hfew : allocations i h.index (past ++ es) < 2 ^ 32) :
    Issued i h (past ++ es) w' ∧ lateness (w.phase? i h) ≤ lateness (w'.phase? i h) := by
  have hall := run_invariant_from (P := fun past v => Issued i h past v ∧
    (allocations i h.index past < 2 ^ 32 → lateness (w.phase? i h) ≤ lateness (v.phase? i h)))
    (fun past v mv o v' hv hs => ⟨hv.1.step hs, fun hlt => ?_⟩)
    ⟨hi, fun _ => Nat.le_refl _⟩ hr
  · exact ⟨hall.1, hall.2 hfew⟩
  · have hle := allocations_le_append i h.index past [(mv, o)]
    exact Nat.le_trans (hv.2 (by omega)) (hv.1.lateness_step hs hlt)

lemma lateness_none_iff (p : Option StreamState) : p = none ↔ 2 ≤ lateness p := by
  rcases p with _ | _ | _ <;> simp [lateness]

lemma Issued.absent {w w' : Moment κ} {past es : History κ} {mvs : List (Move κ)} {i : Nat}
    {h : Handle} (hi : Issued i h past w) (hr : w.run mvs = some (es, w'))
    (hfew : allocations i h.index (past ++ es) < 2 ^ 32) (hgone : w.phase? i h = none) :
    w'.phase? i h = none := by
  rw [lateness_none_iff] at hgone ⊢
  exact Nat.le_trans hgone (hi.run hr hfew).2

/-! ### How a handle goes, and what is left of it -/

/-- The moves by which a handle of manager `i` goes. -/
inductive Ends (w : Moment κ) (i : Nat) (h : Handle) : Move κ → Prop where
  | close : Ends w i h (.call i (.close h))
  | disarm (want : Interests) (callback : Option κ) (hwant : want.isEmpty = true)
      (ho : w.phase? i h = some .orphaned) : Ends w i h (.call i (.arm h want callback))
  /-- It loses its socket while nothing is wanted of it. -/
  | loss (e : SocketEvent) (es : List SocketEvent) (fs : List (Frame κ)) (m : Manager κ)
      (r : Stream κ) (c : SocketId) (abortive : Bool)
      (hf : w.frames = ⟨i, .events (e :: es), none⟩ :: fs) (hm : w.manager? i = some m)
      (hr : m.streams.get? h = some r) (hc : r.socket = some c) (hi : r.interests.isEmpty = true)
      (he : e.Costs c abortive) : Ends w i h .proceed
  | release : Ends w i h (.release i)

lemma phase?_eq_none_of_manager? {w : Moment κ} {i : Nat} (hm : w.manager? i = none) (h : Handle) :
    w.phase? i h = none := by
  simp [phase?, hm]

lemma phase?_of_orphan {w : Moment κ} {i : Nat} {m : Manager κ} (hm : w.manager? i = some m)
    {h : Handle} {r : Stream κ} (hr : m.streams.get? h = some r) (hc : r.socket = none) :
    w.phase? i h = some .orphaned := by
  simp [phase?, hm, Manager.streamState?, hr, Stream.state, hc]

lemma ends_of_call {w : Moment κ} {i : Nat} {s : Site κ} (hs : w.site? i = some s) {h : Handle}
    {c : Call Handle κ} {d : Deed} (hd : d.removed? = some h) (ha : c.Allows s d) :
    Ends w i h (.call i c) := by
  have hm := manager?_of_site? hs
  cases d with
  | close k a =>
    cases hd
    cases c with
    | close g =>
      obtain rfl : h = g := ha
      exact .close
    | _ => exact absurd ha id
  | dismiss k =>
    cases hd
    cases c with
    | close g =>
      obtain rfl : h = g := ha
      exact .close
    | arm g want callback =>
      obtain ⟨rfl, hwant, r, hr, hc⟩ := ha
      exact .disarm want callback hwant (phase?_of_orphan hm hr hc)
    | _ => exact absurd ha id
  | free k a abortive => cases c <;> exact absurd ha id
  | _ => cases hd

lemma ends_of_agenda {w : Moment κ} {i : Nat} {s : Site κ} (hs : w.site? i = some s) {h : Handle}
    {a : Agenda} {fs : List (Frame κ)} (hf : w.frames = ⟨i, a, none⟩ :: fs) {d : Deed}
    (hd : d.removed? = some h) (ha : a.Allows s d) : Ends w i h .proceed := by
  have hm := manager?_of_site? hs
  rcases a with (_ | ⟨e, es⟩) | _ | _
  · cases d <;> first | exact absurd ha id | cases hd
  · cases d with
    | free k c abortive =>
      cases hd
      obtain ⟨he, r, hr, hc, hi⟩ := ha
      exact .loss e es fs _ r c abortive hf hm hr hc hi he
    | close k c | dismiss k => exact absurd ha id
    | _ => cases hd
  · cases d <;> first | exact absurd ha id | cases hd
  · cases d <;> first | exact absurd ha id | cases hd

lemma ends_of_step {w w' : Moment κ} {mv : Move κ} {o : Outcome κ} (hw : w.Orderly)
    (h : Step w mv o w') {i : Nat} {k : Handle} (hk : w.phase? i k ≠ none)
    (hk' : w'.phase? i k = none) : Ends w i k mv := by
  have hf := (h.stage hw).fate hw i
  generalize hx : w'.manager? i = x at hf
  cases hf with
  | same =>
    apply absurd _ hk
    simpa [phase?, hx] using hk'
  | born p ports hi =>
    apply absurd _ hk
    apply phase?_eq_none_of_manager?
    simp [manager?, ← hi]
  | gone he =>
    subst he
    exact .release
  | begun m hm =>
    rw [phase?_eq_none_iff hx] at hk'
    exact absurd ((phase?_eq_none_iff hm k).mpr hk') hk
  | did s s' ds hs hm hx' hds hall =>
    have hms := manager?_of_site? hs
    rw [phase?_eq_none_iff hx] at hk'
    rw [ne_eq, phase?_eq_none_iff hms] at hk
    obtain ⟨d, hmem, hd⟩ := hds.removed hm hx' hk hk'
    have ha := hall d hmem
    cases mv with
    | call j c =>
      obtain ⟨rfl, ha⟩ := ha
      exact ends_of_call hs hd ha
    | proceed =>
      rcases ha with rfl | ⟨f, hf, rfl, ha⟩
      · cases hd
      · cases h with
        | proceed j agenda frames t hfr ht =>
          rw [hfr] at hf
          cases hf
          exact ends_of_agenda hs hfr hd ha
    | leave =>
      obtain rfl : d = .leave := ha
      cases hd
    | network a | note n | create p | release j | begin j => exact absurd ha id

lemma stale_calls {s : Site κ} {h : Handle} (hn : s.manager.streams.get? h = none) :
    (∀ k, s.read h k = (.error .invalidHandle, s.note (.staleRead h))) ∧
      (∀ bytes, s.write h bytes = (.error .invalidHandle, s.note (.staleWrite h))) ∧
      (∀ want callback, s.arm h want callback = (.error .invalidHandle, s.note (.staleArm h))) ∧
      s.close h = s.note (.closeIgnored h) := by
  refine ⟨fun k => ?_, fun bytes => ?_, fun want callback => ?_, ?_⟩
  · simp only [Site.read, hn]
  · simp only [Site.write, hn]
  · simp only [Site.arm, hn]
  · simp only [Site.close, hn]

lemma issued_of_claim {ports : PortSource} {mvs : List (Move κ)} {past : History κ}
    {w w' : Moment κ} {i : Nat} {h : Handle} (hr : (initial ports).run mvs = some (past, w))
    (hs : w.step (.call i .accept) = some (.call (.claimed (some h)), w')) :
    Issued i h (past ++ [(.call i .accept, .call (.claimed (some h)))]) w' ∧
      w'.phase? i h = some .active := by
  have hn := numbered_run hr
  have hclaim : claimed? i (.call i .accept, (.call (.claimed (some h)) : Outcome κ)) = some h :=
    if_pos rfl
  have hm' : ∃ m', w'.manager? i = some m' := by
    have hstep := step_cases hs
    generalize ho : (Outcome.call (.claimed (some h)) : Outcome κ) = o at hstep
    cases hstep with
    | call _ _ s hact hsite =>
      have hlt := lt_of_manager? (manager?_of_site? hsite)
      exact ⟨_, (manager?_put hlt _ i).trans (if_pos rfl)⟩
  obtain ⟨m', hm'⟩ := hm'
  cases step_course hn.orderly (step_cases hs) hm' with
  | born p ports hlen he =>
    rw [hclaim] at he
    cases he
  | descends m _ hm he hd =>
    rw [hclaim] at he
    cases he
  | claims m _ k hm he hc =>
    rw [hclaim] at he
    cases he
    refine ⟨⟨hn.step hs, allocations i h.index past + 1, ?_, Nat.le_add_left _ _, ?_⟩, ?_⟩
    · rw [hc.number, hn.counted i m hm, UInt32.ofNat_add]
      rfl
    · rw [allocations_concat, hclaim]
      simp
    · obtain ⟨r, hr, hc⟩ := hc.made
      obtain ⟨c, hc⟩ := Option.ne_none_iff_exists'.mp hc
      simp [phase?, hm', Manager.streamState?, hr, Stream.state, hc]

/-- A claimed stream is active, then perhaps orphaned, then gone for good; it goes only by the moves of
`Ends`; and when it has gone no callback hears of it and no call under its handle finds a stream. -/
theorem handle_lifecycle {ports : PortSource} {before mid after : List (Move κ)}
    {past es fs : History κ} {w₀ w₁ w₂ w₃ : Moment κ} {i : Nat} {h : Handle}
    (hr₀ : (initial ports).run before = some (past, w₀))
    (hs : w₀.step (.call i .accept) = some (.call (.claimed (some h)), w₁))
    (hr₁ : w₁.run mid = some (es, w₂)) (hr₂ : w₂.run after = some (fs, w₃))
    (hfew : allocations i h.index
      (past ++ [(.call i .accept, .call (.claimed (some h)))] ++ es ++ fs) < 2 ^ 32) :
    w₁.phase? i h = some .active ∧
      lateness (w₂.phase? i h) ≤ lateness (w₃.phase? i h) ∧
      (∀ mv o w', w₂.step mv = some (o, w') → w₂.phase? i h ≠ none → w'.phase? i h = none →
        Ends w₂ i h mv) ∧
      (w₂.phase? i h = none →
        (∀ mv callback e, (mv, .notice i (.event callback h e)) ∉ fs) ∧
        ∀ s, w₂.site? i = some s →
          (∀ k, s.read h k = (.error .invalidHandle, s.note (.staleRead h))) ∧
          (∀ bytes, s.write h bytes = (.error .invalidHandle, s.note (.staleWrite h))) ∧
          (∀ want callback,
            s.arm h want callback = (.error .invalidHandle, s.note (.staleArm h))) ∧
          s.close h = s.note (.closeIgnored h)) := by
  have hle₁ := allocations_le_append i h.index
    (past ++ [(.call i .accept, .call (.claimed (some h)))] ++ es) fs
  obtain ⟨hissued₁, hactive⟩ := issued_of_claim hr₀ hs
  have hissued₂ := (hissued₁.run hr₁ (by omega)).1
  refine ⟨hactive, (hissued₂.run hr₂ hfew).2, fun mv o w' hstep => ?_, fun hgone => ⟨?_, ?_⟩⟩
  · exact ends_of_step hissued₂.numbered.orderly (step_cases hstep)
  -- A notice tells of a live stream, and at the moment of this one the stream has long gone.
  · intro mv callback e hmem
    obtain ⟨mvs₁, es₁, es₂, v, v', hrun, hstep, rfl⟩ := run_split hr₂ hmem
    obtain ⟨-, s, hsite, hlive⟩ := founded_notice hstep
    have hle := allocations_le_append i h.index
      (past ++ [(.call i .accept, .call (.claimed (some h)))] ++ es ++
        (es₁ ++ [(mv, .notice i (.event callback h e))])) es₂
    have hgone' := hissued₂.absent (run_step hrun hstep) (by
      simp only [List.append_assoc, List.cons_append, List.nil_append] at hle hfew ⊢
      omega) hgone
    rw [phase?_eq_none_iff ((v'.site?_eq_some_iff i s).mp hsite).1] at hgone'
    have hlive' : (s.manager.streams.get? h).isSome = true := hlive
    rw [hgone'] at hlive'
    cases hlive'
  · intro s hsite
    rw [phase?_eq_none_iff ((w₂.site?_eq_some_iff i s).mp hsite).1] at hgone
    exact stale_calls hgone

theorem handle_lifecycle_reuse : ∃ past w₀ w₁ es w₂ fs w₃,
    (initial .standard).run (arrival ++ [.begin 0, .proceed, .proceed, .proceed, .proceed]) =
        some (past, w₀) ∧
      w₀.step (.call 0 .accept) = some (.call (.claimed (some ⟨0, 1⟩)), w₁) ∧
      w₁.run [.call 0 (.close ⟨0, 1⟩), .leave, .proceed, .network (.connect 9000), .begin 0,
        .proceed, .proceed, .proceed, .proceed, .proceed, .call 0 .accept,
        .call 0 (.arm ⟨0, 2⟩ .read (some ())), .leave, .proceed] = some (es, w₂) ∧
      w₂.run [.network (.peerSend ⟨3⟩ [7]), .begin 0, .proceed] = some (fs, w₃) ∧
      (.proceed, .notice 0 (.event () ⟨0, 2⟩ .readable)) ∈ fs ∧
      w₁.phase? 0 ⟨0, 1⟩ = some .active ∧ w₂.phase? 0 ⟨0, 1⟩ = none ∧
      (∀ mv e, (mv, .notice 0 (.event () ⟨0, 1⟩ e)) ∉ fs) ∧
      ∃ s, w₂.site? 0 = some s ∧ s.close ⟨0, 1⟩ = s.note (.closeIgnored ⟨0, 1⟩) := by
  have hrun : ∃ past w₀ w₁ es w₂ fs w₃ s,
      (initial .standard).run (arrival ++ [.begin 0, .proceed, .proceed, .proceed, .proceed]) =
          some (past, w₀) ∧
        w₀.step (.call 0 .accept) = some (.call (.claimed (some ⟨0, 1⟩)), w₁) ∧
        w₁.run [.call 0 (.close ⟨0, 1⟩), .leave, .proceed, .network (.connect 9000), .begin 0,
          .proceed, .proceed, .proceed, .proceed, .proceed, .call 0 .accept,
          .call 0 (.arm ⟨0, 2⟩ .read (some ())), .leave, .proceed] = some (es, w₂) ∧
        w₂.run [.network (.peerSend ⟨3⟩ [7]), .begin 0, .proceed] = some (fs, w₃) ∧
        fs[2]? = some (.proceed, .notice 0 (.event () ⟨0, 2⟩ .readable)) ∧
        w₂.site? 0 = some s ∧ w₂.phase? 0 ⟨0, 1⟩ = none ∧
        allocations 0 0 (past ++ [(.call 0 .accept, .call (.claimed (some ⟨0, 1⟩)))] ++ es ++ fs) =
          2 :=
    ⟨_, _, _, _, _, _, _, _, rfl, rfl, rfl, rfl, rfl, rfl, rfl, rfl⟩
  obtain ⟨past, w₀, w₁, es, w₂, fs, w₃, s, hr₀, hs, hr₁, hr₂, hev, hsite, hgone, hfew⟩ := hrun
  obtain ⟨hactive, -, -, habsent⟩ :=
    handle_lifecycle (i := 0) (h := ⟨0, 1⟩) hr₀ hs hr₁ hr₂ (by rw [hfew]; decide)
  obtain ⟨hquiet, hstale⟩ := habsent hgone
  exact ⟨past, w₀, w₁, es, w₂, fs, w₃, hr₀, hs, hr₁, hr₂, List.mem_of_getElem? hev, hactive, hgone,
    fun mv e => hquiet mv () e, s, hsite, (hstale s hsite).2.2.2⟩

end Moment

end BoundedStreams
