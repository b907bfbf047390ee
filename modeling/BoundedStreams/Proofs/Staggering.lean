import BoundedStreams.Proofs.Turnover

/-! The spacing of the offers of a manager. It remembers no more than the last offer and the last time a
stream lost its socket, and that is enough for the whole past. -/

namespace BoundedStreams

namespace Stride

variable {κ : Type}

def Offers (x : Stride κ) (i : Nat) : Prop := ∃ cb, x.outcome = .notice i (.offer cb)

/-- Whether a stream of manager `i` loses its socket. -/
def Loses (x : Stride κ) (i : Nat) : Prop :=
  ∃ h c, x.before.socket? i h = some c ∧ x.after.socket? i h = none

/-- The time `t` is that of the last stride with the property `P`. -/
structure Latest (P : Stride κ → Prop) (tr : List (Stride κ)) (t : Option Nat) : Prop where
  bound : ∀ x ∈ tr, P x → ∃ u, t = some u ∧ x.time ≤ u
  taken : ∀ u, t = some u → ∃ x ∈ tr, P x ∧ x.time = u

namespace Latest

variable {P : Stride κ → Prop} {tr : List (Stride κ)} {t : Option Nat} {x : Stride κ}

lemma none_of_forall (h : ∀ x ∈ tr, ¬ P x) : Latest P tr none :=
  ⟨fun x hx hp => absurd hp (h x hx), nofun⟩

lemma hit (hx : P x) (htr : ∀ y ∈ tr, y.time ≤ x.time) : Latest P (tr ++ [x]) (some x.time) := by
  have hall : ∀ y ∈ tr ++ [x], y.time ≤ x.time := by
    rw [List.forall_mem_append, List.forall_mem_singleton]
    exact ⟨htr, Nat.le_refl _⟩
  exact ⟨fun y hy _ => ⟨x.time, rfl, hall y hy⟩, fun u hu => ⟨x, by simp, hx, Option.some.inj hu⟩⟩

lemma miss (h : Latest P tr t) (hx : ¬ P x) : Latest P (tr ++ [x]) t := by
  refine ⟨?_, fun u hu => ?_⟩
  · rw [List.forall_mem_append, List.forall_mem_singleton]
    exact ⟨h.bound, fun hp => absurd hp hx⟩
  · obtain ⟨y, hy, hp, ht⟩ := h.taken u hu
    exact ⟨y, List.mem_append_left _ hy, hp, ht⟩

/-- The last one stands for all of them. -/
lemma hasPassed_iff (h : Latest P tr t) {now : Nat} (htr : ∀ x ∈ tr, x.time ≤ now) (span : Nat) :
    Stagger.hasPassed span now t = true ↔ ∀ x ∈ tr, P x → x.time + span ≤ now := by
  rw [Stagger.hasPassed_iff]
  constructor
  · intro hspan x hx hp
    obtain ⟨u, hu, hle⟩ := h.bound x hx hp
    obtain ⟨y, hy, -, rfl⟩ := h.taken u hu
    have hy := htr y hy
    have hu := hspan _ hu
    omega
  · intro hall u hu
    obtain ⟨x, hx, hp, rfl⟩ := h.taken u hu
    have hx := hall x hx hp
    omega

end Latest

end Stride

namespace Moment

variable {κ : Type} {w w' : Moment κ} {i : Nat} {m m' : Manager κ} {mv : Move κ} {o : Outcome κ}

lemma socket?_eq_map (hm : w.manager? i = some m) (h : Handle) :
    w.socket? i h = (m.front.attached h).map Prod.fst := by
  rw [socket?, hm, Option.bind_some]
  show _ = ((m.streams.get? h).bind Stream.attachment?).map Prod.fst
  cases m.streams.get? h with
  | none => rfl
  | some r =>
    rw [Option.bind_some, Option.bind_some, Stream.attachment?, Option.map_map]
    exact Option.map_id'.symm

lemma loses_iff (hm : w.manager? i = some m) (hm' : w'.manager? i = some m') :
    Stride.Loses ⟨w, mv, o, w'⟩ i ↔
      ∃ h, m.front.attached h ≠ none ∧ m'.front.attached h = none := by
  simp only [Stride.Loses, socket?_eq_map hm, socket?_eq_map hm', Option.map_eq_none_iff,
    Option.map_eq_some_iff, Option.ne_none_iff_exists']
  constructor
  · rintro ⟨h, c, ⟨p, hp, -⟩, hn⟩
    exact ⟨h, ⟨p, hp⟩, hn⟩
  · rintro ⟨h, ⟨p, hp⟩, hn⟩
    exact ⟨h, p.1, ⟨p, hp, rfl⟩, hn⟩

/-- What a stride does to the memory of the last offer and the last loss. -/
structure Spaces (x : Stride κ) (i : Nat) (f f' : Front κ) : Prop where
  options : f'.options = f.options
  interval : f'.stagger.interval = f.stagger.interval
  quiet : f'.stagger.quiet = f.stagger.quiet
  offer : x.Offers i ∧ f'.stagger.lastOffer = some x.time ∨
    ¬ x.Offers i ∧ f'.stagger.lastOffer = f.stagger.lastOffer
  loss : x.Loses i ∧ f'.stagger.lastClose = some x.time ∨
    ¬ x.Loses i ∧ f'.stagger.lastClose = f.stagger.lastClose
  cause : x.Loses i → (∀ h, x.move = .call i (.close h) → f.attached h ≠ none) ∧
    (∀ c es, x.before.job? i = some (.events (⟨c, .closed⟩ :: es)) → c ∉ f.backlog.sockets) ∧
    f'.rejected = f.rejected

lemma Spaces.of_quiet {x : Stride κ} {f f' : Front κ} (hoptions : f'.options = f.options)
    (hstagger : f'.stagger = f.stagger) (ho : ¬ x.Offers i) (hl : ¬ x.Loses i) : Spaces x i f f' :=
  ⟨hoptions, congrArg Stagger.interval hstagger, congrArg Stagger.quiet hstagger,
    .inr ⟨ho, congrArg Stagger.lastOffer hstagger⟩, .inr ⟨hl, congrArg Stagger.lastClose hstagger⟩,
    fun hl' => absurd hl' hl⟩

lemma Service.spaces (hserve : Service w i m.front mv o m'.front) (h : Step w mv o w')
    (hm : w.manager? i = some m) (hm' : w'.manager? i = some m') :
    Spaces ⟨w, mv, o, w'⟩ i m.front m'.front := by
  have hlose : Stride.Loses ⟨w, mv, o, w'⟩ i ↔ _ := loses_iff hm hm'
  generalize m'.front = f' at hserve hlose
  -- A stream that has a socket afterwards did not lose it.
  have hkept : f'.attached = m.front.attached → ¬ Stride.Loses ⟨w, mv, o, w'⟩ i := by
    intro he hl
    obtain ⟨g, hg, hg'⟩ := hlose.mp hl
    exact hg (he ▸ hg')
  have hset : ∀ h p, f'.attached = Function.update m.front.attached h (some p) →
      ¬ Stride.Loses ⟨w, mv, o, w'⟩ i := by
    intro h p he hl
    obtain ⟨g, hg, hg'⟩ := hlose.mp hl
    rw [he, Function.update_apply] at hg'
    split at hg'
    · cases hg'
    · exact hg hg'
  have hlost : ∀ h p, m.front.attached h = some p →
      f'.attached = Function.update m.front.attached h none → Stride.Loses ⟨w, mv, o, w'⟩ i := by
    intro h p hp he
    refine hlose.mpr ⟨h, by simp [hp], ?_⟩
    rw [he, Function.update_self]
  have hquiet : (∀ cb, o ≠ .notice i (.offer cb)) → ¬ Stride.Offers ⟨w, mv, o, w'⟩ i :=
    fun hno ⟨cb, he⟩ => hno cb he
  cases hserve with
  | idle mv o hclaim hclose huse hoffer harrival hclosed hend =>
    exact .of_quiet rfl rfl (hquiet hoffer) (hkept rfl)
  | opened | shut | withdrawn => exact .of_quiet rfl rfl (hquiet nofun) (hkept rfl)
  | claimed | read => exact .of_quiet rfl rfl (hquiet nofun) (hset _ _ rfl)
  | closed g c t hg =>
    refine ⟨rfl, rfl, rfl, .inr ⟨hquiet nofun, rfl⟩, .inl ⟨hlost g _ hg rfl, rfl⟩,
      fun _ => ⟨fun k hk => ?_, fun d es hj => ?_, rfl⟩⟩
    · cases hk
      simp [hg]
    · cases move_of_job? hj h
  | lost c es hj hc g t hg =>
    refine ⟨rfl, rfl, rfl, .inr ⟨hquiet nofun, rfl⟩, .inl ⟨hlost g _ hg rfl, rfl⟩,
      fun _ => ⟨fun k hk => ?_, fun d ds hd => ?_, rfl⟩⟩
    · cases hk
    · cases hj.symm.trans hd
      exact hc
  | arrived c l es hj hl f' hf' =>
    cases hf' with
    | refused | admitted => exact .of_quiet rfl rfl (hquiet nofun) (hkept rfl)
    | evicted g hc hb hp hv =>
      obtain ⟨d, t, hg, -⟩ := hv
      refine ⟨rfl, rfl, rfl, .inr ⟨hquiet nofun, rfl⟩, .inl ⟨hlost g _ hg rfl, rfl⟩,
        fun _ => ⟨fun k hk => ?_, fun d ds hd => ?_, rfl⟩⟩
      · cases hk
      · cases hj.symm.trans hd
  | offered l p b hj hl hmay hb =>
    exact ⟨rfl, rfl, rfl, .inl ⟨⟨_, rfl⟩, rfl⟩, .inr ⟨hkept rfl, rfl⟩,
      fun hl => absurd hl (hkept rfl)⟩

/-- At `now` every earlier offer and every earlier loss of manager `i`, which is `m`, is far enough
back for another offer. -/
def Spaced (i : Nat) (tr : List (Stride κ)) (m : Manager κ) (now : Nat) : Prop :=
  ∀ x ∈ tr, (x.Offers i → x.time + m.options.minAcceptInterval ≤ now) ∧
    (x.Loses i → x.time + m.options.closeQuietPeriod ≤ now)

structure Staggered (i : Nat) (past : List (Stride κ)) (w : Moment κ) : Prop where
  times : ∀ x ∈ past, x.time ≤ w.network.clock
  spacing : ∀ m, w.manager? i = some m → m.stagger.interval = m.options.minAcceptInterval ∧
    m.stagger.quiet = m.options.closeQuietPeriod
  offer : ∀ m, w.manager? i = some m →
    Stride.Latest (·.Offers i) past m.stagger.lastOffer
  loss : ∀ m, w.manager? i = some m → Stride.Latest (·.Loses i) past m.stagger.lastClose
  unborn : w.managers.length ≤ i → ∀ x ∈ past, ¬ x.Offers i ∧ ¬ x.Loses i

namespace Staggered

variable {past : List (Stride κ)}

lemma still_unborn (h : Staggered i past w) (hi : w.managers.length ≤ i)
    (ho : ∀ n, o ≠ .notice i n) :
    ∀ x ∈ past ++ [⟨w, mv, o, w'⟩], ¬ x.Offers i ∧ ¬ x.Loses i := by
  rw [List.forall_mem_append, List.forall_mem_singleton]
  refine ⟨h.unborn hi, fun ⟨cb, he⟩ => ho _ he, fun ⟨g, c, hc, _⟩ => ?_⟩
  rw [socket?, manager?_of_le hi, Option.bind_none] at hc
  cases hc

lemma step (ha : Staggered i past w) (h : Step w mv o w') (hs : Serves w i w' mv o) :
    Staggered i (past ++ [⟨w, mv, o, w'⟩]) w' := by
  have htimes := h.times_le ha.times
  cases hs with
  | away mv o hm hm' ho hc =>
    have hno : ∀ m, w'.manager? i ≠ some m := fun m he => by cases hm'.symm.trans he
    exact ⟨htimes, fun m he => absurd he (hno m), fun m he => absurd he (hno m),
      fun m he => absurd he (hno m),
      fun hi => ha.still_unborn (Nat.le_trans h.length_le hi) ho⟩
  | born p hi hm =>
    have hnone : ∀ x ∈ past ++ [⟨w, .create p, .done, w'⟩], ¬ x.Offers i ∧ ¬ x.Loses i :=
      ha.still_unborn (Nat.le_of_eq hi) nofun
    refine ⟨htimes, fun m he => ?_, fun m he => ?_, fun m he => ?_, fun _ => hnone⟩
    all_goals cases hm.symm.trans he
    · exact ⟨rfl, rfl⟩
    · exact .none_of_forall fun x hx => (hnone x hx).1
    · exact .none_of_forall fun x hx => (hnone x hx).2
  | gone m hm hm' =>
    have hno : ∀ m, w'.manager? i ≠ some m := fun m he => by cases hm'.symm.trans he
    refine ⟨htimes, fun m he => absurd he (hno m), fun m he => absurd he (hno m),
      fun m he => absurd he (hno m), fun hi => ?_⟩
    exact absurd (lt_of_manager? hm) (Nat.not_lt.mpr (Nat.le_trans h.length_le hi))
  | serves mv o m m' hm hm' hs hr =>
    obtain ⟨hopt, hint, hquiet, hoffer, hloss, -⟩ := hs.spaces h hm hm'
    have hsame : ∀ m₁, w'.manager? i = some m₁ → m₁ = m' :=
      fun m₁ he => (Option.some.inj (hm'.symm.trans he)).symm
    refine ⟨htimes, fun m₁ he => ?_, fun m₁ he => ?_, fun m₁ he => ?_, fun hi => ?_⟩
    · obtain ⟨h₁, h₂⟩ := ha.spacing m hm
      rw [hsame m₁ he]
      have hopt' : m'.options = m.options := hopt
      have hint' : m'.stagger.interval = m.stagger.interval := hint
      have hquiet' : m'.stagger.quiet = m.stagger.quiet := hquiet
      rw [hint', hquiet', hopt']
      exact ⟨h₁, h₂⟩
    · rw [hsame m₁ he]
      rcases hoffer with ⟨hx, ht⟩ | ⟨hx, ht⟩
      · exact (show m'.stagger.lastOffer = _ from ht) ▸ .hit hx ha.times
      · exact (show m'.stagger.lastOffer = _ from ht) ▸ (ha.offer m hm).miss hx
    · rw [hsame m₁ he]
      rcases hloss with ⟨hx, ht⟩ | ⟨hx, ht⟩
      · exact (show m'.stagger.lastClose = _ from ht) ▸ .hit hx ha.times
      · exact (show m'.stagger.lastClose = _ from ht) ▸ (ha.loss m hm).miss hx
    · exact absurd (lt_of_manager? hm') (Nat.not_lt.mpr hi)

lemma mayOffer_iff (ha : Staggered i past w) (hm : w.manager? i = some m) :
    m.stagger.mayOffer w.network.clock = true ↔ Spaced i past m w.network.clock := by
  obtain ⟨hint, hquiet⟩ := ha.spacing m hm
  rw [Stagger.mayOffer, Bool.and_eq_true, (ha.offer m hm).hasPassed_iff ha.times,
    (ha.loss m hm).hasPassed_iff ha.times, hint, hquiet]
  exact ⟨fun h x hx => ⟨h.1 x hx, h.2 x hx⟩,
    fun h => ⟨fun x hx => (h x hx).1, fun x hx => (h x hx).2⟩⟩

lemma due_iff (ha : Staggered i past w) (hm : w.manager? i = some m) :
    m.front.Due w.network.clock ↔ m.listener.isSome = true ∧ (∃ p ∈ m.backlog, p.offered = false) ∧
      Spaced i past m w.network.clock := by
  rw [← ha.mayOffer_iff hm, Front.Due]
  simp only [Manager.front, Backlog.hasUnoffered, List.any_eq_true, Bool.not_eq_true']
  exact ⟨fun h => ⟨h.1, h.2.2, h.2.1⟩, fun h => ⟨h.1, h.2.2, h.2.1⟩⟩

end Staggered

lemma staggered_run {ports : PortSource} {mvs : List (Move κ)} {es : History κ}
    (hr : (initial ports).run mvs = some (es, w)) (i : Nat) :
    Staggered i ((initial ports).trace mvs) w := by
  refine trace_invariant (P := Staggered i) ⟨?_, ?_, ?_, ?_, ?_⟩ ?_ hr
  · exact fun x hx => absurd hx List.not_mem_nil
  · exact fun m hm => by simp [manager?, initial] at hm
  · exact fun m hm => by simp [manager?, initial] at hm
  · exact fun m hm => by simp [manager?, initial] at hm
  · exact fun _ x hx => absurd hx List.not_mem_nil
  · exact fun past w₁ mv o w₂ hreach ha h => ha.step h (hreach.serves h i)

/-! ### Offers and turns -/

lemma Step.agenda?_eq (h : Step w mv o w') (hj : w.job? i = none) (hb : mv ≠ .begin i) :
    w'.agenda? i = w.agenda? i := by
  cases h with
  | network a hact | note n hact | call j c s hact hs | create p hact | release j s hact hi hs => rfl
  | begin j s hact hi hs =>
    have hij : j ≠ i := fun he => hb (he ▸ rfl)
    have hframes : (w.begin j s).frames = ⟨j, .events s.begin.1, none⟩ :: w.frames := rfl
    exact (agenda?_cons hframes i).trans (if_neg hij)
  | proceed j a fs s hf hs =>
    rw [proceed_eq]
    refine agenda?_during_of_ne hf (fun hij => ?_) _ _
    rw [hij] at hf
    rw [job?_eq_some_iff.mpr ⟨fs, hf⟩] at hj
    cases hj
  | leave j a n fs s hf hs =>
    by_cases hij : j = i
    · exact ((agenda?_cons rfl i).trans (if_pos hij)).trans
        ((agenda?_cons hf i).trans (if_pos hij)).symm
    · exact agenda?_during_of_ne hf hij (some a) _

lemma Step.job_of_offers (h : Step w mv o w') (hw : w.Orderly) (hserves : Serves w i w' mv o)
    (ho : Stride.Offers ⟨w, mv, o, w'⟩ i) :
    w.job? i = some (.ends []) ∧ w'.agenda? i = some .flush := by
  obtain ⟨cb, hcb⟩ := ho
  have hcb : o = .notice i (.offer cb) := hcb
  have hjob : w.job? i = some (.ends []) := by
    subst hcb
    cases hserves with
    | away mv o hm hm' ho hc => exact absurd rfl (ho _)
    | serves mv o m m' hm hm' hs hr =>
      generalize m'.front = f' at hs
      cases hs with
      | idle mv o hclaim hclose huse hoffer harrival hclosed hend => exact absurd rfl (hoffer cb)
      | offered l p b hj hl hmay hb => exact hj
  refine ⟨hjob, ?_⟩
  have hview := h.view hw i
  subst hcb
  generalize ho : Outcome.notice i (.offer cb) = o at hview
  cases hview with
  | apart mv o hm ha hn hc hb hr => exact absurd ho.symm (hn _)
  | job a s hs ha hs' ha' =>
    cases ha.symm.trans (agenda?_of_job? hjob)
    exact ha'
  | born | gone | begin | call | leave => cases ho

/-- Manager `i` makes one offer a turn, and none of its turns ends without a chance for it. -/
structure Turned (i : Nat) (past : List (Stride κ)) (w : Moment κ) : Prop where
  spent : ∀ first x mid, past = first ++ x :: mid → x.Offers i → (∀ z ∈ mid, z.move ≠ .begin i) →
    w.agenda? i = none ∨ w.agenda? i = some .flush
  passed : w.agenda? i = some .flush → ∃ first x mid, past = first ++ x :: mid ∧
    x.before.job? i = some (.ends []) ∧ ∀ z ∈ mid, z.move ≠ .begin i

lemma cut_concat {past first mid : List (Stride κ)} {x y : Stride κ}
    (h : past ++ [y] = first ++ x :: mid) :
    mid = [] ∧ past = first ∧ y = x ∨ ∃ mid', mid = mid' ++ [y] ∧ past = first ++ x :: mid' := by
  rcases List.eq_nil_or_concat' mid with rfl | ⟨mid', z, rfl⟩
  · obtain ⟨hp, hy⟩ := List.append_inj' h rfl
    exact .inl ⟨rfl, hp, List.head_eq_of_cons_eq hy⟩
  · rw [← List.cons_append, ← List.append_assoc] at h
    obtain ⟨hp, hy⟩ := List.append_inj' h rfl
    exact .inr ⟨mid', by rw [List.head_eq_of_cons_eq hy], hp⟩

namespace Turned

variable {past : List (Stride κ)}

lemma spent_step (ht : Turned i past w) (h : Step w mv o w') (hw : w.Orderly)
    (hserves : Serves w i w' mv o) {first mid : List (Stride κ)} {x : Stride κ}
    (hcut : past ++ [⟨w, mv, o, w'⟩] = first ++ x :: mid) (hx : x.Offers i)
    (hmid : ∀ z ∈ mid, z.move ≠ .begin i) : w'.agenda? i = none ∨ w'.agenda? i = some .flush := by
  rcases cut_concat hcut with ⟨rfl, rfl, rfl⟩ | ⟨mid', rfl, rfl⟩
  · exact .inr (h.job_of_offers hw hserves hx).2
  · have hold := ht.spent first x mid' rfl hx fun z hz => hmid z (List.mem_append_left _ hz)
    have hb : mv ≠ .begin i := hmid ⟨w, mv, o, w'⟩ (by simp)
    cases h.view hw i with
    | apart mv o hm ha hn hc hb hr => exact ha ▸ hold
    | born p hi hm ha => exact .inl ha
    | gone hm ha ha' => exact .inl ha'
    | begin s hs hs' ha ha' => exact absurd rfl hb
    | call c s hs hs' ha => exact ha ▸ hold
    | job a s hs ha hs' ha' =>
      rcases hold with hnone | hflush
      · cases hnone.symm.trans ha
      · cases hflush.symm.trans ha
        exact .inl ha'
    | leave s hs hs' ha => exact ha ▸ hold

lemma passed_step (ht : Turned i past w) (h : Step w mv o w') (hw : w.Orderly)
    (hflush : w'.agenda? i = some .flush) : ∃ first x mid,
      past ++ [⟨w, mv, o, w'⟩] = first ++ x :: mid ∧ x.before.job? i = some (.ends []) ∧
        ∀ z ∈ mid, z.move ≠ .begin i := by
  have hold : w.agenda? i = some .flush → mv ≠ .begin i → ∃ first x mid,
      past ++ [⟨w, mv, o, w'⟩] = first ++ x :: mid ∧ x.before.job? i = some (.ends []) ∧
        ∀ z ∈ mid, z.move ≠ .begin i := by
    intro ha hb
    obtain ⟨first, x, mid, rfl, hx, hmid⟩ := ht.passed ha
    refine ⟨first, x, mid ++ [⟨w, mv, o, w'⟩], by simp, hx, ?_⟩
    rw [List.forall_mem_append, List.forall_mem_singleton]
    exact ⟨hmid, hb⟩
  -- The agenda was what it is now, or the job of this step is the offer.
  cases hj : w.job? i with
  | none =>
    by_cases hb : mv = .begin i
    · subst hb
      cases h.view hw i with
      | apart mv o hm ha hn hc hb hr => exact absurd rfl hb
      | begin s hs hs' ha ha' => cases hflush.symm.trans ha'
    · exact hold ((h.agenda?_eq hj hb).symm.trans hflush) hb
  | some a =>
    have hmv := move_of_job? hj h
    subst hmv
    have ha := agenda?_of_job? hj
    cases h.view hw i with
    | apart mv o hm ha' hn hc hb hr => exact hold (ha'.symm.trans hflush) nofun
    | job b s hs hb hs' ha' =>
      cases hb.symm.trans ha
      refine ⟨past, ⟨w, .proceed, _, w'⟩, [], rfl, ?_, fun z hz => absurd hz List.not_mem_nil⟩
      have hnext := ha'.symm.trans hflush
      rcases a with (_ | ⟨e, es⟩) | (_ | ⟨g, gs⟩) | _
      · cases hnext
      · cases hnext
      · exact hj
      · cases hnext
      · cases hnext

end Turned

lemma turned_run {ports : PortSource} {mvs : List (Move κ)} {es : History κ}
    (hr : (initial ports).run mvs = some (es, w)) (i : Nat) :
    Turned i ((initial ports).trace mvs) w := by
  refine trace_invariant (P := Turned i) ⟨fun first x mid h => ?_, nofun⟩ ?_ hr
  · simp at h
  · intro past w₁ mv o w₂ hreach ht h
    exact ⟨fun first x mid hcut hx hmid => ht.spent_step h hreach.orderly (hreach.serves h i) hcut hx
      hmid, ht.passed_step h hreach.orderly⟩

lemma Step.cause (h : Step w mv o w') (hserves : Serves w i w' mv o)
    (hl : Stride.Loses ⟨w, mv, o, w'⟩ i) :
    (∀ g, mv = .call i (.close g) → w.socket? i g ≠ none) ∧
      (∀ c, w.event? i = some ⟨c, .closed⟩ → c ∉ (w.backlog i).sockets) ∧
      ∀ m m', w.manager? i = some m → w'.manager? i = some m' →
        m'.totals.rejected = m.totals.rejected := by
  obtain ⟨k, d, hk, -⟩ := id hl
  cases hm : w.manager? i with
  | none =>
    rw [socket?, hm, Option.bind_none] at hk
    cases hk
  | some m =>
    cases hserves with
    | away mv o hnone => cases hm.symm.trans hnone
    | born p hi => exact absurd (lt_of_manager? hm) (Nat.not_lt.mpr (Nat.le_of_eq hi))
    | gone m₁ hm₁ hm' =>
      refine ⟨by simp, fun c hc => ?_, fun _ _ _ h' => by cases hm'.symm.trans h'⟩
      obtain ⟨es, hj⟩ := event?_eq_some_iff.mp hc
      cases move_of_job? hj h
    | serves mv o m₁ m' hm₁ hm' hs hr =>
      cases hm.symm.trans hm₁
      obtain ⟨hclose, hclosed, hrejected⟩ := (hs.spaces h hm hm').cause hl
      refine ⟨fun g hg => ?_, fun c hc => ?_, fun n n' hn hn' => ?_⟩
      · rw [socket?_eq_map hm, ne_eq, Option.map_eq_none_iff]
        exact hclose g hg
      · obtain ⟨es, hj⟩ := event?_eq_some_iff.mp hc
        rw [backlog_eq hm]
        exact hclosed c es hj
      · cases hn
        cases hm'.symm.trans hn'
        exact hrejected

lemma Staggered.offers {past : List (Stride κ)} (ha : Staggered i past w) (hw : w.Orderly)
    (hm : w.manager? i = some m) (hwithin : m.Within) (hj : w.job? i = some (.ends [])) :
    ∃ o w', w.step .proceed = some (o, w') ∧
      ((∃ cb, o = .notice i (.offer cb)) ↔ m.listener.isSome = true ∧
        (∃ p ∈ m.backlog, p.offered = false) ∧ Spaced i past m w.network.clock) ∧
      ∀ cb, o = .notice i (.offer cb) → (∃ l, m.listener = some l ∧ l.callback = cb) ∧
        ∃ first p rest, m.backlog = first ++ p :: rest ∧ (∀ q ∈ first, q.offered = true) ∧
          p.offered = false ∧ w'.backlog i = first ++ { p with offered := true } :: rest := by
  have hs : w.site? i = some ⟨w.network, m, w.journal⟩ := (w.site?_eq_some_iff i _).mpr ⟨hm, rfl, rfl⟩
  obtain ⟨w', hstep, hm'⟩ := step_of_job? hj hs
  refine ⟨_, w', hstep, ?_⟩
  have h := step_cases hstep
  generalize Option.elim _ Outcome.done (Outcome.notice i) = o at h
  generalize Site.manager _ = m' at hm'
  have hserve := h.service hw hm hwithin hm'
  rw [← ha.due_iff hm, backlog_eq hm']
  generalize hf : m'.front = f' at hserve
  cases hserve with
  | idle mv o hclaim hclose huse hoffer harrival hclosed hend =>
    exact ⟨⟨fun ⟨cb, he⟩ => absurd he (hoffer cb), fun hdue => absurd hdue (hend hj)⟩,
      fun cb he => absurd he (hoffer cb)⟩
  | arrived c l es hj' hl f' hf' => cases hj.symm.trans hj'
  | withdrawn c es hj' hc => cases hj.symm.trans hj'
  | lost c es hj' hc g t hg => cases hj.symm.trans hj'
  | offered l p b hj' hl hmay hb =>
    obtain ⟨first, q, rest, hback, rfl, hfirst, hq, rfl⟩ := Backlog.offer_split hb
    refine ⟨⟨fun _ => ⟨?_, hmay, ?_⟩, fun _ => ⟨_, rfl⟩⟩, fun cb he => ?_⟩
    · exact Option.isSome_iff_exists.mpr ⟨l, hl⟩
    · rw [← Backlog.isSome_offer, hb]
      rfl
    · cases he
      exact ⟨⟨l, hl, rfl⟩, first, q, rest, hback, hfirst, hq, congrArg Front.backlog hf⟩

/-- Offers keep their distance from each other and from every earlier loss of a socket, and from
nothing else; a turn makes at most one, and it does make one if that is due when its events and ends are
done with, for the oldest connection that was not offered yet. -/
theorem offers_staggered {ports : PortSource} {mvs : List (Move κ)} {es : History κ}
    (hr : (initial ports).run mvs = some (es, w)) (i : Nat) :
    (∀ first y rest m, (initial ports).trace mvs = first ++ y :: rest → y.Offers i →
      y.before.manager? i = some m → Spaced i first m y.time) ∧
    (∀ first x mid y rest, (initial ports).trace mvs = first ++ x :: (mid ++ y :: rest) →
      x.Offers i → y.Offers i → ∃ z ∈ mid, z.move = .begin i) ∧
    (∀ first y rest, (initial ports).trace mvs = first ++ y :: rest →
      y.before.job? i = some .flush → ∃ past x mid, first = past ++ x :: mid ∧
        x.before.job? i = some (.ends []) ∧ ∀ z ∈ mid, z.move ≠ .begin i) ∧
    (∀ x ∈ (initial ports).trace mvs, x.Loses i →
      (∀ h, x.move = .call i (.close h) → x.before.socket? i h ≠ none) ∧
      (∀ c, x.before.event? i = some ⟨c, .closed⟩ → c ∉ (x.before.backlog i).sockets) ∧
      ∀ m m', x.before.manager? i = some m → x.after.manager? i = some m' →
        m'.totals.rejected = m.totals.rejected) ∧
    ∀ m, w.manager? i = some m → w.job? i = some (.ends []) →
      ∃ o w', w.step .proceed = some (o, w') ∧
        ((∃ cb, o = .notice i (.offer cb)) ↔ m.listener.isSome = true ∧
          (∃ p ∈ m.backlog, p.offered = false) ∧
          Spaced i ((initial ports).trace mvs) m w.network.clock) ∧
        ∀ cb, o = .notice i (.offer cb) → (∃ l, m.listener = some l ∧ l.callback = cb) ∧
          ∃ first p rest, m.backlog = first ++ p :: rest ∧ (∀ q ∈ first, q.offered = true) ∧
            p.offered = false ∧ w'.backlog i = first ++ { p with offered := true } :: rest := by
  refine ⟨fun first y rest m hy hoffers hm => ?_, fun first x mid y rest hy hx hoffers => ?_,
    fun first y rest hy hj => ?_, fun x hx hl => ?_, fun m hm hj => ?_⟩
  · obtain ⟨mvs₁, mvs₂, es₁, es₂, -, hr₁, rfl, hstep, -, -⟩ := trace_split hr hy
    have hreach := Reaches.of_run hr₁
    have h := step_cases hstep
    have hjob := (h.job_of_offers hreach.orderly (hreach.serves h i) hoffers).1
    obtain ⟨o, w', hstep', hdue, -⟩ :=
      (staggered_run hr₁ i).offers hreach.orderly hm (hreach.within hm) hjob
    rw [move_of_job? hjob h, hstep'] at hstep
    cases hstep
    exact (hdue.mp hoffers).2.2
  · rw [← List.cons_append, ← List.append_assoc] at hy
    obtain ⟨mvs₁, mvs₂, es₁, es₂, -, hr₁, htrace, hstep, -, -⟩ := trace_split hr hy
    have hreach := Reaches.of_run hr₁
    have h := step_cases hstep
    have hagenda := agenda?_of_job? (h.job_of_offers hreach.orderly (hreach.serves h i) hoffers).1
    -- After an offer a turn never comes back to its ends.
    by_contra hno
    push Not at hno
    rcases (turned_run hr₁ i).spent first x mid htrace hx hno with hnone | hflush
    · cases hnone.symm.trans hagenda
    · cases hflush.symm.trans hagenda
  · obtain ⟨mvs₁, mvs₂, es₁, es₂, -, hr₁, htrace, hstep, -, -⟩ := trace_split hr hy
    rw [← htrace]
    exact (turned_run hr₁ i).passed (agenda?_of_job? hj)
  · obtain ⟨first, rest, hcut⟩ := List.append_of_mem hx
    obtain ⟨mvs₁, mvs₂, es₁, es₂, -, hr₁, -, hstep, -, -⟩ := trace_split hr hcut
    have h := step_cases hstep
    exact h.cause ((Reaches.of_run hr₁).serves h i) hl
  · have hreach := Reaches.of_run hr
    exact (staggered_run hr i).offers hreach.orderly hm (hreach.within hm) hj

/-- Two peers connect. The first is offered at once, the second after the interval, which is five. -/
def pair : List (Move Unit) :=
  [.create ⟨some 9000, 2, 2, 5, 0, 0, 64, 0⟩, .call 0 (.openListener ()), .network (.connect 9000),
    .network (.connect 9000), .begin 0, .proceed, .proceed, .proceed, .proceed, .proceed, .proceed,
    .leave, .proceed, .network (.advance 5), .begin 0, .proceed, .proceed, .proceed]

theorem offers_staggered_pair : ∃ es w m w', (initial .standard).run pair = some (es, w) ∧
    w.manager? 0 = some m ∧ w.network.clock = 5 ∧ m.options.minAcceptInterval = 5 ∧
    w.step .proceed = some (.notice 0 (.offer ()), w') ∧
    Spaced 0 ((initial .standard).trace pair) m w.network.clock ∧
    ∃ first p rest, m.backlog = first ++ p :: rest ∧ (∀ q ∈ first, q.offered = true) ∧
      p.offered = false ∧ w'.backlog 0 = first ++ { p with offered := true } :: rest := by
  have hrun : ∃ es w m w', (initial .standard).run pair = some (es, w) ∧ w.manager? 0 = some m ∧
      w.network.clock = 5 ∧ m.options.minAcceptInterval = 5 ∧ w.job? 0 = some (.ends []) ∧
      w.step .proceed = some (.notice 0 (.offer ()), w') :=
    ⟨_, _, _, _, rfl, rfl, rfl, rfl, rfl, rfl⟩
  obtain ⟨es, w, m, w', hr, hm, hclock, hint, hj, hstep⟩ := hrun
  obtain ⟨-, -, -, -, hoffers⟩ := offers_staggered hr 0
  obtain ⟨o, w'', hstep', hdue, hshown⟩ := hoffers m hm hj
  cases hstep.symm.trans hstep'
  exact ⟨es, w, m, w', hr, hm, hclock, hint, hstep, (hdue.mp ⟨(), rfl⟩).2.2, (hshown () rfl).2⟩

end Moment

end BoundedStreams
