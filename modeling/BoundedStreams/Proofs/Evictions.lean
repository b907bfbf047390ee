import BoundedStreams.Proofs.Staggering

/-! Evictions. A stream is evicted exactly when that lets a connection in, it is the one that was used
least recently, and until the next claim there is no other eviction. -/

namespace BoundedStreams

namespace Stride

variable {κ : Type}

/-- Whether the stream under `h` of manager `i` loses its socket to a connection that arrives. -/
def Evicts (x : Stride κ) (i : Nat) (h : Handle) : Prop :=
  (∃ c l, x.before.event? i = some ⟨c, .accepted l⟩) ∧ x.before.socket? i h ≠ none ∧
    x.after.socket? i h = none

lemma Evicts.loses {x : Stride κ} {i : Nat} {h : Handle} (he : x.Evicts i h) : x.Loses i := by
  obtain ⟨c, hc⟩ := Option.ne_none_iff_exists'.mp he.2.1
  exact ⟨h, c, hc, he.2.2⟩

/-- The stream under `h` of manager `i` was claimed or read from at `t`, and not later. -/
def LastUsed (tr : List (Stride κ)) (i : Nat) (h : Handle) (t : Nat) : Prop :=
  Latest (fun x => Moment.uses i h (x.move, x.outcome) = true) tr (some t)

lemma Latest.eq {P : Stride κ → Prop} {tr : List (Stride κ)} {t u : Nat} (ht : Latest P tr (some t))
    (hu : Latest P tr (some u)) : t = u := by
  have hle : ∀ {t u}, Latest P tr (some t) → Latest P tr (some u) → t ≤ u := by
    intro t u ht hu
    obtain ⟨x, hx, hp, rfl⟩ := ht.taken t rfl
    obtain ⟨v, hv, hle⟩ := hu.bound x hx hp
    exact Option.some.inj hv ▸ hle
  exact Nat.le_antisymm (hle ht hu) (hle hu ht)

end Stride

namespace Moment

variable {κ : Type} {w w' : Moment κ} {i : Nat} {m m' : Manager κ} {mv : Move κ} {o : Outcome κ}

/-! ### The last use of a stream -/

lemma uses_of_claimed {h k : Handle}
    (hu : uses i k ((.call i .accept : Move κ), .call (.claimed (some h))) = true) : k = h := by
  rcases uses_eq_true_iff.mp hu with hc | ⟨n, bytes, hc, -⟩
  · exact (Option.some.inj ((claimed?_eq_some_iff.mpr ⟨rfl, rfl⟩).symm.trans hc)).symm
  · cases hc

lemma uses_of_read {h k : Handle} {n : Nat} {reply : Call.Reply}
    (hu : uses i k ((.call i (.read h n) : Move κ), .call reply) = true) : k = h := by
  rcases uses_eq_true_iff.mp hu with hc | ⟨n, bytes, hc, -⟩
  · cases (claimed?_eq_some_iff.mp hc).1
  · cases hc
    rfl

structure Dated (i : Nat) (past : List (Stride κ)) (w : Moment κ) : Prop where
  times : ∀ x ∈ past, x.time ≤ w.network.clock
  used : ∀ m h c t, w.manager? i = some m → m.front.attached h = some (c, t) →
    Stride.LastUsed past i h t

lemma Service.used {past : List (Stride κ)} (hd : Dated i past w)
    (hserve : Service w i m.front mv o m'.front) (hm : w.manager? i = some m) {h : Handle}
    {c : SocketId} {t : Nat} (hc : m'.front.attached h = some (c, t)) :
    Stride.LastUsed (past ++ [⟨w, mv, o, w'⟩]) i h t := by
  have hmiss : m.front.attached h = some (c, t) → ¬ uses i h (mv, o) = true →
      Stride.LastUsed (past ++ [⟨w, mv, o, w'⟩]) i h t :=
    fun hold hno => (hd.used m h c t hm hold).miss hno
  have hhit : uses i h (mv, o) = true → t = w.network.clock →
      Stride.LastUsed (past ++ [⟨w, mv, o, w'⟩]) i h t := by
    rintro hu rfl
    exact Stride.Latest.hit hu hd.times
  have hset : ∀ g p, Function.update m.front.attached g p h = some (c, t) →
      h = g ∧ p = some (c, t) ∨ h ≠ g ∧ m.front.attached h = some (c, t) := by
    intro g p hp
    rw [Function.update_apply] at hp
    split at hp
    · next he => exact .inl ⟨he, hp⟩
    · next he => exact .inr ⟨he, hp⟩
  have hlost : ∀ g, Function.update m.front.attached g none h = some (c, t) →
      m.front.attached h = some (c, t) := by
    intro g hp
    rcases hset g none hp with ⟨-, hp⟩ | ⟨-, hp⟩
    · cases hp
    · exact hp
  generalize m'.front = f' at hserve hc
  cases hserve with
  | idle mv o hclaim hclose huse hoffer harrival hclosed hend =>
    exact hmiss hc fun hu => by cases (huse h hu).symm.trans hc
  | opened | shut | withdrawn | offered => exact hmiss hc nofun
  | claimed g p b hb hg =>
    rcases hset g _ hc with ⟨rfl, hp⟩ | ⟨hne, hp⟩
    · cases hp
      exact hhit (uses_eq_true_iff.mpr (.inl (claimed?_eq_some_iff.mpr ⟨rfl, rfl⟩))) rfl
    · exact hmiss hp fun hu => hne (uses_of_claimed hu)
  | closed g d u hg => exact hmiss (hlost g hc) nofun
  | read g k bytes d u hg =>
    rcases hset g _ hc with ⟨rfl, hp⟩ | ⟨hne, hp⟩
    · cases hp
      exact hhit (uses_eq_true_iff.mpr (.inr ⟨k, bytes, rfl, rfl⟩)) rfl
    · exact hmiss hp fun hu => hne (uses_of_read hu)
  | lost d es hj hd' g u hg => exact hmiss (hlost g hc) nofun
  | arrived d l es hj hl f' hf' =>
    cases hf' with
    | refused | admitted => exact hmiss hc nofun
    | evicted g hcap hb hp hv => exact hmiss (hlost g hc) nofun

lemma Dated.step {past : List (Stride κ)} (hd : Dated i past w) (h : Step w mv o w')
    (hs : Serves w i w' mv o) : Dated i (past ++ [⟨w, mv, o, w'⟩]) w' := by
  refine ⟨h.times_le hd.times, fun m' g c t hm' hc => ?_⟩
  cases hs with
  | away mv o hm hnone ho hc' => cases hnone.symm.trans hm'
  | born p hi hm =>
    cases hm.symm.trans hm'
    have hempty : (Manager.create p w.ports : Manager κ × PortSource).1.front.attached g = none := by
      show ((Arena.empty : Arena (Stream κ)).get? g).bind Stream.attachment? = none
      rw [Arena.get?_empty, Option.bind_none]
    cases hempty.symm.trans hc
  | gone m hm hnone => cases hnone.symm.trans hm'
  | serves mv o m₀ m₁ hm hm₁ hs hr =>
    cases hm₁.symm.trans hm'
    exact hs.used hd hm hc

lemma dated_run {ports : PortSource} {mvs : List (Move κ)} {es : History κ}
    (hr : (initial ports).run mvs = some (es, w)) (i : Nat) :
    Dated i ((initial ports).trace mvs) w := by
  refine trace_invariant (P := Dated i) ⟨?_, ?_⟩ ?_ hr
  · exact fun x hx => absurd hx List.not_mem_nil
  · exact fun m h c t hm => by simp [manager?, initial] at hm
  · exact fun past w₁ mv o w₂ hreach hd h => hd.step h (hreach.serves h i)

/-- A stream with a socket that nobody has used for as long as the options demand. -/
def IdleStream (w : Moment κ) (i : Nat) (tr : List (Stride κ)) (m : Manager κ) : Prop :=
  ∃ h t, w.socket? i h ≠ none ∧ Stride.LastUsed tr i h t ∧ t + m.options.minIdle ≤ w.network.clock

/-- Of the streams with a socket the one under `h` was used least recently, and of several it has the
lowest slot. -/
def LeastRecent (w : Moment κ) (i : Nat) (tr : List (Stride κ)) (h : Handle) : Prop :=
  ∃ t, Stride.LastUsed tr i h t ∧ ∀ g, w.socket? i g ≠ none →
    ∃ u, Stride.LastUsed tr i g u ∧ (t < u ∨ t = u ∧ h.index ≤ g.index)

namespace Dated

variable {past : List (Stride κ)}

lemma attached (hm : w.manager? i = some m) {h : Handle} (hs : w.socket? i h ≠ none) :
    ∃ c t, m.front.attached h = some (c, t) := by
  rw [socket?_eq_map hm, ne_eq, Option.map_eq_none_iff, ← ne_eq, Option.ne_none_iff_exists'] at hs
  obtain ⟨⟨c, t⟩, hp⟩ := hs
  exact ⟨c, t, hp⟩

lemma socket_ne_none (hm : w.manager? i = some m) {h : Handle} {c : SocketId} {t : Nat}
    (hc : m.front.attached h = some (c, t)) : w.socket? i h ≠ none := by
  rw [socket?_eq hm hc]
  nofun

lemma time_le (hd : Dated i past w) {h : Handle} {t : Nat} (hu : Stride.LastUsed past i h t) :
    t ≤ w.network.clock := by
  obtain ⟨x, hx, -, rfl⟩ := hu.taken t rfl
  exact hd.times x hx

lemma victim (hd : Dated i past w) (hm : w.manager? i = some m) {h : Handle}
    (hv : m.front.Victim w.network.clock h) :
    IdleStream w i past m ∧ LeastRecent w i past h := by
  obtain ⟨c, t, hc, hidle, hleast⟩ := hv
  have hused := hd.used m h c t hm hc
  have hle := hd.time_le hused
  have hidle' : m.options.minIdle ≤ w.network.clock - t := hidle
  refine ⟨⟨h, t, socket_ne_none hm hc, hused, by omega⟩, t, hused, fun g hg => ?_⟩
  obtain ⟨d, u, hu⟩ := attached hm hg
  exact ⟨u, hd.used m g d u hm hu, hleast g d u hu⟩

lemma not_idle (hd : Dated i past w) (hm : w.manager? i = some m)
    (hno : ∀ h c t, m.front.attached h = some (c, t) →
      w.network.clock - t < m.front.options.minIdle) : ¬ IdleStream w i past m := by
  rintro ⟨h, t, hs, hu, hidle⟩
  obtain ⟨c, v, hv⟩ := attached hm hs
  have hlt := hno h c v hv
  rw [hu.eq (hd.used m h c v hm hv)] at hidle
  have hopt : m.front.options.minIdle = m.options.minIdle := rfl
  omega

end Dated

/-- What a connection for the open listener does to the streams of manager `i` and to its totals. -/
structure Decides (w : Moment κ) (i : Nat) (tr : List (Stride κ)) (m : Manager κ) (c : SocketId)
    (w' : Moment κ) : Prop where
  needed : (∃ h, Stride.Evicts ⟨w, .proceed, .done, w'⟩ i h) ↔ m.active = m.options.capacity ∧
    1 ≤ m.options.maxPending ∧ IdleStream w i tr m
  least : ∀ h, Stride.Evicts ⟨w, .proceed, .done, w'⟩ i h → LeastRecent w i tr h
  once : ∀ h g, Stride.Evicts ⟨w, .proceed, .done, w'⟩ i h →
    Stride.Evicts ⟨w, .proceed, .done, w'⟩ i g → h = g
  admitted : (∃ h, Stride.Evicts ⟨w, .proceed, .done, w'⟩ i h) → c ∈ (w'.backlog i).sockets ∧
    ∃ m', w'.manager? i = some m' ∧ m'.totals.accepted = m.totals.accepted + 1 ∧
      m'.totals.rejected = m.totals.rejected ∧ m'.totals.evicted = m.totals.evicted + 1

lemma Decides.of_none {tr : List (Stride κ)} {c : SocketId}
    (h : ∀ h, ¬ Stride.Evicts ⟨w, .proceed, .done, w'⟩ i h)
    (hno : ¬ (m.active = m.options.capacity ∧ 1 ≤ m.options.maxPending ∧ IdleStream w i tr m)) :
    Decides w i tr m c w' :=
  ⟨⟨fun ⟨g, hg⟩ => absurd hg (h g), fun hneed => absurd hneed hno⟩, fun g hg => absurd hg (h g),
    fun g _ hg => absurd hg (h g), fun ⟨g, hg⟩ => absurd hg (h g)⟩

lemma not_evicts (hm : w.manager? i = some m) (hm' : w'.manager? i = some m')
    (he : m'.front.attached = m.front.attached) (h : Handle) :
    ¬ Stride.Evicts ⟨w, mv, o, w'⟩ i h := by
  rintro ⟨-, hs, hn⟩
  have hsame : w'.socket? i h = w.socket? i h := by
    rw [socket?_eq_map hm, socket?_eq_map hm', he]
  exact hs (hsame.symm.trans hn)

lemma evicts_iff (hm : w.manager? i = some m) (hm' : w'.manager? i = some m') {c l : SocketId}
    (he : w.event? i = some ⟨c, .accepted l⟩) {g : Handle} {d : SocketId} {t : Nat}
    (hg : m.front.attached g = some (d, t))
    (hset : m'.front.attached = Function.update m.front.attached g none) (h : Handle) :
    Stride.Evicts ⟨w, mv, o, w'⟩ i h ↔ h = g := by
  constructor
  · rintro ⟨-, hs, hn⟩
    by_contra hne
    have hsame : w'.socket? i h = w.socket? i h := by
      rw [socket?_eq_map hm, socket?_eq_map hm', hset, Function.update_of_ne hne]
    exact hs (hsame.symm.trans hn)
  · rintro rfl
    refine ⟨⟨c, l, he⟩, Dated.socket_ne_none hm hg, ?_⟩
    show w'.socket? i h = none
    rw [socket?_eq_map hm', hset, Function.update_self]
    rfl

lemma Dated.decides {past : List (Stride κ)} (hd : Dated i past w) (hw : w.Orderly)
    (hm : w.manager? i = some m) (hwithin : m.Within) {c l : SocketId}
    (he : w.event? i = some ⟨c, .accepted l⟩) (hl : w.listening? i = some l) :
    ∃ w', w.step .proceed = some (.done, w') ∧ Decides w i past m c w' := by
  have hs : w.site? i = some ⟨w.network, m, w.journal⟩ := (w.site?_eq_some_iff i _).mpr ⟨hm, rfl, rfl⟩
  obtain ⟨es, hj⟩ := event?_eq_some_iff.mp he
  obtain ⟨w', hstep, hm'⟩ := step_of_job? hj hs
  refine ⟨w', hstep, ?_⟩
  have h := step_cases hstep
  generalize Site.manager _ = m' at hm'
  have hserve := h.service hw hm hwithin hm'
  have hlisten : m.front.Listens l := by
    rw [listening?, hm, Option.bind_some] at hl
    exact hl
  generalize hf : m'.front = f' at hserve
  have hnone : f'.attached = m.front.attached →
      ∀ h, ¬ Stride.Evicts ⟨w, .proceed, .done, w'⟩ i h :=
    fun hsame h => not_evicts hm hm' (by rw [hf, hsame]) h
  cases hserve with
  | idle mv o hclaim hclose huse hoffer harrival hclosed hend =>
    exact absurd hlisten (harrival c l es hj)
  | withdrawn d ds hd' hc => cases hj.symm.trans hd'
  | lost d ds hd' hc g t hg => cases hj.symm.trans hd'
  | arrived d k ds hd' hk f' hf' =>
    cases hj.symm.trans hd'
    cases hf' with
    | refused hv =>
      exact .of_none (hnone rfl) fun h => hd.not_idle hm (hv h.1 h.2.1) h.2.2
    | admitted hp hc =>
      refine .of_none (hnone rfl) fun hfull => ?_
      have hcap := hfull.1
      have hroom : m.active + m.backlog.length < m.options.capacity := hc
      omega
    | evicted g hcap hb hp hv =>
      obtain ⟨hidle, hleast⟩ := hd.victim hm hv
      obtain ⟨d, t, hg, -⟩ := hv
      have hiff : ∀ h, Stride.Evicts ⟨w, .proceed, .done, w'⟩ i h ↔ h = g :=
        evicts_iff hm hm' he hg (congrArg Front.attached hf)
      refine ⟨⟨fun _ => ⟨hcap, hp, hidle⟩, fun _ => ⟨g, (hiff g).mpr rfl⟩⟩, fun h hh => ?_,
        fun h k hh hk => ((hiff h).mp hh).trans ((hiff k).mp hk).symm, fun _ => ⟨?_, m', hm', ?_⟩⟩
      · exact (hiff h).mp hh ▸ hleast
      · rw [backlog_eq hm', show m'.backlog = _ from congrArg Front.backlog hf]
        simp [Front.enqueue]
      · exact ⟨congrArg Front.accepted hf, congrArg Front.rejected hf, congrArg Front.evicted hf⟩

/-! ### One eviction at a time -/

lemma Service.active_of_evicts (hserve : Service w i m.front mv o m'.front) (h : Step w mv o w')
    (hw : w.Orderly) (hm : w.manager? i = some m) (hm' : w'.manager? i = some m') {g : Handle}
    (he : Stride.Evicts ⟨w, mv, o, w'⟩ i g) :
    m.active = m.options.capacity ∧ m'.active < m'.options.capacity := by
  have hno : m'.front.attached = m.front.attached → False :=
    fun hsame => not_evicts hm hm' hsame g he
  obtain ⟨⟨c, l, hevent⟩, -⟩ := he
  obtain ⟨es, hj⟩ := event?_eq_some_iff.mp hevent
  obtain rfl := move_of_job? hj h
  generalize hf : m'.front = f' at hserve hno
  cases hserve with
  | idle | offered => exact (hno rfl).elim
  | withdrawn d ds hd hc => cases hj.symm.trans hd
  | lost d ds hd hc k t hk => cases hj.symm.trans hd
  | arrived d k ds hd hk f' hf' =>
    cases hf' with
    | refused | admitted => exact (hno rfl).elim
    | evicted k hcap hb hp hv =>
      obtain ⟨d, t, hk, -⟩ := hv
      obtain ⟨r, hr, hsocket, -⟩ := (m.streams.attached_eq_some_iff k d t).mp hk
      have hpos := (hw.coherent i m hm).active_pos hr hsocket
      have hactive : m'.active = m.active - 1 := congrArg Front.active hf
      have hopt : m'.options = m.options := congrArg Front.options hf
      have hcap' : m.active = m.options.capacity := hcap
      refine ⟨hcap', ?_⟩
      rw [hactive, hopt]
      omega

lemma Step.full_of_evicts (h : Step w mv o w') (hw : w.Orderly) (hserves : Serves w i w' mv o)
    {g : Handle} (he : Stride.Evicts ⟨w, mv, o, w'⟩ i g) :
    ∃ m, w.manager? i = some m ∧ m.active = m.options.capacity := by
  obtain ⟨⟨c, l, hevent⟩, hsocket, -⟩ := id he
  have hno : w.manager? i ≠ none := by
    intro hm
    rw [socket?, hm, Option.bind_none] at hsocket
    exact hsocket rfl
  cases hserves with
  | away mv o hm => exact absurd hm hno
  | born p hi => exact absurd (manager?_of_le (Nat.le_of_eq hi)) hno
  | gone m hm hm' =>
    obtain ⟨es, hj⟩ := event?_eq_some_iff.mp hevent
    cases move_of_job? hj h
  | serves mv o m m' hm hm' hs hr => exact ⟨m, hm, (hs.active_of_evicts h hw hm hm' he).1⟩

lemma Service.active_le (hserve : Service w i m.front mv o m'.front)
    (hc : claimed? i (mv, o) = none) : m'.options = m.options ∧ m'.active ≤ m.active := by
  have hopt : ∀ f : Front κ, m'.front = f → f.options = m.options → f.active ≤ m.active →
      m'.options = m.options ∧ m'.active ≤ m.active := by
    rintro f rfl ho ha
    exact ⟨ho, ha⟩
  generalize hf : m'.front = f' at hserve
  cases hserve with
  | idle | opened | shut | read | withdrawn | offered =>
    exact hopt _ hf rfl (Nat.le_refl _)
  | claimed g p b hb hg =>
    rw [claimed?_eq_some_iff.mpr ⟨rfl, rfl⟩] at hc
    cases hc
  | closed | lost => exact hopt _ hf rfl (Nat.sub_le _ _)
  | arrived d k ds hd hk f' hf' =>
    cases hf' with
    | refused | admitted => exact hopt _ hf rfl (Nat.le_refl _)
    | evicted => exact hopt _ hf rfl (Nat.sub_le _ _)

/-- After an eviction, until the next claim, manager `i` has a free slot. -/
def Roomy (i : Nat) (past : List (Stride κ)) (w : Moment κ) : Prop :=
  ∀ first x mid h, past = first ++ x :: mid → x.Evicts i h →
    (∀ z ∈ mid, claimed? i (z.move, z.outcome) = none) →
      ∀ m, w.manager? i = some m → m.active < m.options.capacity

lemma Roomy.step {past : List (Stride κ)} (hp : Roomy i past w) (hst : Staggered i past w)
    (h : Step w mv o w') (hw : w.Orderly) (hs : Serves w i w' mv o) :
    Roomy i (past ++ [⟨w, mv, o, w'⟩]) w' := by
  intro first x mid g hcut hx hmid m' hm'
  cases hs with
  | away mv o hm hnone ho hc => cases hnone.symm.trans hm'
  | gone m hm hnone => cases hnone.symm.trans hm'
  | born p hi hm =>
    have hno : ∀ x ∈ past ++ [⟨w, .create p, .done, w'⟩], ¬ x.Offers i ∧ ¬ x.Loses i :=
      hst.still_unborn (Nat.le_of_eq hi) nofun
    rw [hcut] at hno
    exact absurd hx.loses (hno x (by simp)).2
  | serves mv o m m₁ hm hm₁ hs hr =>
    cases hm₁.symm.trans hm'
    rcases cut_concat hcut with ⟨-, -, rfl⟩ | ⟨mid', rfl, rfl⟩
    · exact (hs.active_of_evicts h hw hm hm' hx).2
    · have hroom := hp first x mid' g rfl hx
        (fun z hz => hmid z (List.mem_append_left _ hz)) m hm
      have hclaim : claimed? i (mv, o) = none := hmid ⟨w, mv, o, w'⟩ (by simp)
      obtain ⟨hopt, hle⟩ := hs.active_le hclaim
      rw [hopt]
      exact Nat.lt_of_le_of_lt hle hroom

lemma roomy_run {ports : PortSource} {mvs : List (Move κ)} {es : History κ}
    (hr : (initial ports).run mvs = some (es, w)) (i : Nat) :
    Roomy i ((initial ports).trace mvs) w := by
  have hnil : (initial ports : Moment κ).run [] = some ([], initial ports) := rfl
  refine (trace_invariant (P := fun tr w => Staggered i tr w ∧ Roomy i tr w)
    ⟨staggered_run hnil i, fun first x mid h hcut => ?_⟩ ?_ hr).2
  · simp at hcut
  · intro past w₁ mv o w₂ hreach ⟨hst, hp⟩ h
    have hserves := hreach.serves h i
    exact ⟨hst.step h hserves, hp.step hst h hreach.orderly hserves⟩

/-- A connection for the open listener evicts a stream exactly if every slot is taken, the backlog may
hold a connection, and some stream has been idle for long enough. It evicts the one that was used least
recently and is admitted. Between two evictions a stream is claimed. -/
theorem evicts_when_needed {ports : PortSource} {mvs : List (Move κ)} {es : History κ}
    (hr : (initial ports).run mvs = some (es, w)) (i : Nat) :
    (∀ m c l, w.manager? i = some m → w.event? i = some ⟨c, .accepted l⟩ → w.listening? i = some l →
      ∃ w', w.step .proceed = some (.done, w') ∧
        Decides w i ((initial ports).trace mvs) m c w') ∧
    ∀ first x mid y rest h g, (initial ports).trace mvs = first ++ x :: (mid ++ y :: rest) →
      x.Evicts i h → y.Evicts i g → ∃ z ∈ mid, ∃ k, claimed? i (z.move, z.outcome) = some k := by
  refine ⟨fun m c l hm he hl => ?_, fun first x mid y rest h g hcut hx hy => ?_⟩
  · have hreach := Reaches.of_run hr
    exact (dated_run hr i).decides hreach.orderly hm (hreach.within hm) he hl
  · rw [← List.cons_append, ← List.append_assoc] at hcut
    obtain ⟨mvs₁, mvs₂, es₁, es₂, -, hr₁, htrace, hstep, -, -⟩ := trace_split hr hcut
    have hreach := Reaches.of_run hr₁
    by_contra hno
    push Not at hno
    have hroom := roomy_run hr₁ i first x mid h htrace hx
      fun z hz => Option.eq_none_iff_forall_ne_some.mpr (hno z hz)
    have h := step_cases hstep
    -- The second eviction needs every slot taken, and since the first one of them is free.
    obtain ⟨m, hm, hfull⟩ := h.full_of_evicts hreach.orderly (hreach.serves h i) hy
    exact Nat.ne_of_lt (hroom m hm) hfull

/-- The only slot is taken when another peer connects. -/
def contest : List (Move Unit) :=
  arrival ++ [.begin 0, .proceed, .proceed, .proceed, .proceed, .call 0 .accept, .leave, .proceed,
    .network (.connect 9000), .begin 0]

theorem evicts_when_needed_contest : ∃ es w m w', (initial .standard).run contest = some (es, w) ∧
    w.manager? 0 = some m ∧ w.event? 0 = some ⟨⟨3⟩, .accepted ⟨1⟩⟩ ∧
    w.step .proceed = some (.done, w') ∧ w.socket? 0 ⟨0, 1⟩ = some ⟨2⟩ ∧
    Stride.Evicts ⟨w, .proceed, .done, w'⟩ 0 ⟨0, 1⟩ ∧
    IdleStream w 0 ((initial .standard).trace contest) m ∧ ⟨3⟩ ∈ (w'.backlog 0).sockets := by
  have hrun : ∃ es w m w', (initial .standard).run contest = some (es, w) ∧ w.manager? 0 = some m ∧
      w.event? 0 = some ⟨⟨3⟩, .accepted ⟨1⟩⟩ ∧ w.listening? 0 = some ⟨1⟩ ∧
      w.step .proceed = some (.done, w') ∧ w.socket? 0 ⟨0, 1⟩ = some ⟨2⟩ ∧
      w'.socket? 0 ⟨0, 1⟩ = none := ⟨_, _, _, _, rfl, rfl, rfl, rfl, rfl, rfl, rfl⟩
  obtain ⟨es, w, m, w', hr, hm, he, hl, hstep, hs, hs'⟩ := hrun
  obtain ⟨w'', hstep', hneeded, -, -, hadmitted⟩ := (evicts_when_needed hr 0).1 m _ _ hm he hl
  cases hstep.symm.trans hstep'
  have hevicts : Stride.Evicts ⟨w, .proceed, .done, w'⟩ 0 ⟨0, 1⟩ :=
    ⟨⟨_, _, he⟩, by rw [hs]; nofun, hs'⟩
  exact ⟨es, w, m, w', hr, hm, he, hstep, hs, hevicts, (hneeded.mp ⟨_, hevicts⟩).2.2,
    (hadmitted ⟨_, hevicts⟩).1⟩

end Moment

end BoundedStreams
