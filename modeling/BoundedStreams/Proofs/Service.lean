import BoundedStreams.Proofs.Front

/-! The steps of a run as the front of one manager sees them. -/

namespace BoundedStreams

namespace Moment

variable {κ : Type}

/-- Whether the stream under `h` of manager `i` was claimed or read from. -/
def uses (i : Nat) (h : Handle) : Move κ × Outcome κ → Bool
  | (.call k .accept, .call (.claimed (some g))) => k = i && g = h
  | (.call k (.read g _), .call (.read (.ok _))) => k = i && g = h
  | _ => false

lemma uses_eq_true_iff {i : Nat} {h : Handle} {mv : Move κ} {o : Outcome κ} :
    uses i h (mv, o) = true ↔ claimed? i (mv, o) = some h ∨
      ∃ k bytes, mv = .call i (.read h k) ∧ o = .call (.read (.ok bytes)) := by
  constructor
  · intro hu
    rw [uses.eq_def] at hu
    split at hu
    · next k g he =>
      cases he
      simp only [Bool.and_eq_true, decide_eq_true_eq] at hu
      obtain ⟨rfl, rfl⟩ := hu
      exact .inl (if_pos rfl)
    · next k g n bytes he =>
      cases he
      simp only [Bool.and_eq_true, decide_eq_true_eq] at hu
      obtain ⟨rfl, rfl⟩ := hu
      exact .inr ⟨n, bytes, rfl, rfl⟩
    · cases hu
  · rintro (hc | ⟨k, bytes, rfl, rfl⟩)
    · obtain ⟨rfl, rfl⟩ := claimed?_eq_some_iff.mp hc
      simp [uses]
    · simp [uses]

/-- What a move with its outcome does to the front `f` of manager `i`. -/
inductive Service (w : Moment κ) (i : Nat) (f : Front κ) : Move κ → Outcome κ → Front κ → Prop where
  | idle (mv : Move κ) (o : Outcome κ) (hclaim : claimed? i (mv, o) = none)
      (hshut : mv = .call i .closeListener → f.listener = none)
      (huse : ∀ h, uses i h (mv, o) = true → f.attached h = none)
      (hoffer : ∀ cb, o ≠ .notice i (.offer cb))
      (harrival : ∀ c l es, w.job? i = some (.events (⟨c, .accepted l⟩ :: es)) → ¬ f.Listens l)
      (hclosed : ∀ c es, w.job? i = some (.events (⟨c, .closed⟩ :: es)) → c ∉ f.backlog.sockets)
      (hend : w.job? i = some (.ends []) → ¬ f.Due w.network.clock) : Service w i f mv o f
  | opened (cb : κ) (reply : Call.Reply) (l : Listener κ) (hl : f.listener = none) :
      Service w i f (.call i (.openListener cb)) (.call reply) { f with listener := some l }
  | shut (hl : f.listener ≠ none) : Service w i f (.call i .closeListener) (.call .done) f.shut
  | claimed (h : Handle) (p : Pending) (b : Backlog) (hb : f.backlog = p :: b)
      (hh : f.attached h = none) :
      Service w i f (.call i .accept) (.call (.claimed (some h)))
        (f.claim h p.socket b w.network.clock)
  | closed (h : Handle) (c : SocketId) (t : Nat) (hh : f.attached h = some (c, t)) :
      Service w i f (.call i (.close h)) (.call .done) (f.lose h w.network.clock)
  | read (h : Handle) (k : Nat) (bytes : Bytes) (c : SocketId) (t : Nat)
      (hh : f.attached h = some (c, t)) :
      Service w i f (.call i (.read h k)) (.call (.read (.ok bytes))) (f.touch h c w.network.clock)
  | arrived (c l : SocketId) (es : List SocketEvent)
      (hj : w.job? i = some (.events (⟨c, .accepted l⟩ :: es))) (hl : f.Listens l) (f' : Front κ)
      (hf : Site.Received f c w.network.clock f') : Service w i f .proceed .done f'
  | withdrawn (c : SocketId) (es : List SocketEvent)
      (hj : w.job? i = some (.events (⟨c, .closed⟩ :: es))) (hc : c ∈ f.backlog.sockets) :
      Service w i f .proceed .done (f.withdraw c)
  | lost (c : SocketId) (es : List SocketEvent)
      (hj : w.job? i = some (.events (⟨c, .closed⟩ :: es))) (hc : c ∉ f.backlog.sockets) (h : Handle)
      (t : Nat) (hh : f.attached h = some (c, t)) :
      Service w i f .proceed .done (f.lose h w.network.clock)
  | offered (l : Listener κ) (p : Pending) (b : Backlog) (hj : w.job? i = some (.ends []))
      (hl : f.listener = some l) (hmay : f.stagger.mayOffer w.network.clock = true)
      (hb : f.backlog.offer = some (p, b)) :
      Service w i f .proceed (.notice i (.offer l.callback)) (f.offer b w.network.clock)

namespace Service

variable {w : Moment κ} {i : Nat} {f : Front κ} {mv : Move κ} {o : Outcome κ}

lemma of_apart (hj : w.job? i = none) (hc : ∀ c, mv ≠ .call i c) (ho : ∀ n, o ≠ .notice i n) :
    Service w i f mv o f := by
  refine .idle mv o ?_ (fun h => absurd h (hc _)) (fun h hu => ?_) (fun cb => ho _)
    (fun c l es h => ?_) (fun c es h => ?_) fun h => ?_
  · rw [Option.eq_none_iff_forall_ne_some]
    exact fun h hh => hc _ (claimed?_eq_some_iff.mp hh).1
  · rcases uses_eq_true_iff.mp hu with hh | ⟨k, bytes, hmv, -⟩
    · exact absurd (claimed?_eq_some_iff.mp hh).1 (hc _)
    · exact absurd hmv (hc _)
  all_goals
    rw [hj] at h
    cases h

lemma of_call (hj : w.job? i = none) {c : Call Handle κ} {reply : Call.Reply}
    (hshut : c = .closeListener → f.listener = none)
    (hclaim : ∀ h, c = .accept → reply ≠ .claimed (some h))
    (hread : ∀ h k bytes, c = .read h k → reply = .read (.ok bytes) → f.attached h = none) :
    Service w i f (.call i c) (.call reply) f := by
  have hno : ∀ h, claimed? i (.call i c, .call reply) ≠ some h := by
    intro h hh
    obtain ⟨hc, hr⟩ := claimed?_eq_some_iff.mp hh
    cases hc
    cases hr
    exact hclaim h rfl rfl
  refine .idle _ _ (Option.eq_none_iff_forall_ne_some.mpr hno) (fun h => hshut (Move.call.inj h).2)
    (fun h hu => ?_) nofun (fun c l es h => ?_) (fun c es h => ?_) fun h => ?_
  · rcases uses_eq_true_iff.mp hu with hh | ⟨k, bytes, hc, hr⟩
    · exact absurd hh (hno h)
    · cases hc
      cases hr
      exact hread h k bytes rfl rfl
  all_goals
    rw [hj] at h
    cases h

lemma of_job {a : Agenda} (hj : w.job? i = some a) (n : Option (Notice κ))
    (ho : ∀ cb, n ≠ some (.offer cb))
    (harrival : ∀ c l es, a = .events (⟨c, .accepted l⟩ :: es) → ¬ f.Listens l)
    (hclosed : ∀ c es, a = .events (⟨c, .closed⟩ :: es) → c ∉ f.backlog.sockets)
    (hend : a = .ends [] → ¬ f.Due w.network.clock) :
    Service w i f .proceed (n.elim .done (.notice i)) f := by
  refine .idle _ _ rfl nofun nofun (fun cb hn => ?_) (fun c l es h => ?_) (fun c es h => ?_) fun h => ?_
  · cases n with
    | none => cases hn
    | some n =>
      cases hn
      exact ho cb rfl
  all_goals
    rw [hj] at h
    cases h
  · exact harrival c l es rfl
  · exact hclosed c es rfl
  · exact hend rfl

end Service

variable {w w' : Moment κ} {i : Nat} {s : Site κ}

lemma manager?_during (hm : i < w.managers.length) (s : Site κ) (fs : List (Frame κ)) :
    (w.during i s fs).manager? i = some s.manager :=
  (w.manager?_put hm s i).trans (if_pos rfl)

lemma manager?_during_of_ne {j : Nat} (hij : j ≠ i) (s : Site κ) (fs : List (Frame κ)) :
    (w.during j s fs).manager? i = w.manager? i :=
  manager?_put_of_ne w hij s

lemma service_of_call (hs : w.site? i = some s) (hm : s.manager.Coherent) (hj : w.job? i = none)
    (c : Call Handle κ) : Service w i s.manager.front (.call i c) (.call (c.perform s).1)
      (c.perform s).2.manager.front := by
  have hnow := site?_now hs
  cases c with
  | openListener cb =>
    rcases s.front_openListener cb with hf | ⟨hl, l, hf⟩
    · exact hf ▸ .of_call hj nofun nofun nofun
    · exact hf ▸ .opened cb _ l hl
  | closeListener =>
    rcases s.front_closeListener with ⟨hl, hf⟩ | ⟨hl, hf⟩
    · show Service w i _ _ _ s.closeListener.manager.front
      rw [hf]
      exact .of_call hj (fun _ => hl) nofun nofun
    · exact hf ▸ .shut hl
  | accept =>
    show Service w i _ _ (.call (.claimed s.accept.1)) s.accept.2.manager.front
    rcases Site.front_accept hm.arena with ⟨hn, hf⟩ | ⟨h, p, b, hh, hb, hfree, hf⟩
    · rw [hn, hf]
      exact .of_call hj nofun nofun nofun
    · rw [hh, hf, hnow]
      exact .claimed h p b hb hfree
  | close h =>
    rcases s.front_close h with ⟨-, hf⟩ | ⟨c, t, hh, hf⟩
    · exact hf ▸ .of_call hj nofun nofun nofun
    · show Service w i _ _ _ (s.close h).manager.front
      rw [hf, hnow]
      exact .closed h c t hh
  | arm h want cb => exact (s.front_arm h want cb) ▸ .of_call hj nofun nofun nofun
  | read h k =>
    show Service w i _ _ (.call (.read (s.read h k).1)) (s.read h k).2.manager.front
    rcases s.front_read h k with ⟨hf, hgone⟩ | ⟨bytes, c, t, hr, hh, hf⟩
    · rw [hf]
      refine .of_call hj nofun nofun ?_
      rintro g n bytes hc hr
      cases hc
      exact hgone bytes (Call.Reply.read.inj hr)
    · rw [hr, hf, hnow]
      exact .read h k bytes c t hh
  | write h bytes => exact (s.front_write h bytes) ▸ .of_call hj nofun nofun nofun
  | port | closeOutput h | state h | stats => exact .of_call hj nofun nofun nofun

lemma service_of_job (hs : w.site? i = some s) (hm : s.manager.Coherent) (hwithin : s.manager.Within)
    {a : Agenda} (hj : w.job? i = some a) : Service w i s.manager.front .proceed
      ((a.next s).2.2.elim .done (.notice i)) (a.next s).2.1.manager.front := by
  have hnow := site?_now hs
  rcases a with (_ | ⟨⟨c, kind⟩, es⟩) | (_ | ⟨h, hs⟩) | _
  · exact .of_job hj none (by simp) (by simp) (by simp) (by simp)
  · show Service w i _ _ ((s.handle ⟨c, kind⟩).2.elim .done (.notice i))
      (s.handle ⟨c, kind⟩).1.manager.front
    have hquiet : ∀ n : Option (Notice κ), (∀ cb, n ≠ some (.offer cb)) →
        (∀ l, kind ≠ .accepted l) → kind ≠ .closed →
        Service w i s.manager.front .proceed (n.elim .done (.notice i)) s.manager.front := by
      intro n hn ha hc
      refine .of_job hj n hn ?_ ?_ (by simp)
      · rintro d l es' he
        cases he
        exact absurd rfl (ha l)
      · rintro d es' he
        cases he
        exact absurd rfl hc
    cases kind with
    | accepted l =>
      by_cases hl : s.manager.front.Listens l
      · have hr := Site.received hm hwithin c hl
        rw [hnow] at hr
        exact .arrived c l es hj hl _ hr
      · rw [show (s.handle ⟨c, .accepted l⟩).1.manager.front = _ from s.front_late c hl]
        refine .of_job hj none (by simp) ?_ (by simp) (by simp)
        rintro d k es' he
        cases he
        exact hl
    | closed =>
      show Service w i _ _ .done (s.onClosed c).manager.front
      rcases Site.front_onClosed c hm with ⟨hh, hf⟩ | ⟨hh, hf⟩ | ⟨h, t, hh, hatt, hf⟩
      · exact hf ▸ .withdrawn c es hj (Backlog.holds_iff.mp hh)
      · rw [hf]
        refine .of_job hj none (by simp) (by simp) ?_ (by simp)
        rintro d es' he
        cases he
        exact fun hmem => Bool.eq_false_iff.mp hh (Backlog.holds_iff.mpr hmem)
      · rw [hf, hnow]
        exact .lost c es hj (fun hmem => Bool.eq_false_iff.mp hh (Backlog.holds_iff.mpr hmem)) h t
          hatt
    | received | sent | timer | poll =>
      rw [Site.handle]
      dsimp only
      split
      · next h _ =>
        rw [s.front_evaluate]
        exact hquiet _ (s.evaluate_ne_offer h) (by simp) (by simp)
      · exact hquiet none (by simp) (by simp) (by simp)
  · show Service w i _ _ (s.offerPending.2.elim .done (.notice i)) s.offerPending.1.manager.front
    rcases s.front_offerPending with ⟨hn, hf, hdue⟩ | ⟨l, p, b, hl, hmay, hb, hn, hf⟩
    · rw [hn, hf]
      exact .of_job hj none (by simp) (by simp) (by simp) fun _ => hnow ▸ hdue
    · rw [hn, hf, hnow]
      exact .offered l p b hj hl (hnow ▸ hmay) hb
  · show Service w i _ _ ((s.deliverEnd h).2.elim .done (.notice i)) (s.deliverEnd h).1.manager.front
    rw [s.front_deliverEnd]
    exact .of_job hj _ (s.deliverEnd_ne_offer h) (by simp) (by simp) (by simp)
  · exact .of_job hj none (by simp) (by simp) (by simp) (by simp)

lemma Step.service {m m' : Manager κ} {mv : Move κ} {o : Outcome κ} (h : Step w mv o w')
    (hw : w.Orderly) (hm : w.manager? i = some m) (hwithin : m.Within)
    (hm' : w'.manager? i = some m') : Service w i m.front mv o m'.front := by
  have hs : w.site? i = some ⟨w.network, m, w.journal⟩ := (w.site?_eq_some_iff i _).mpr ⟨hm, rfl, rfl⟩
  have hcoh := hw.coherent_site hs
  cases h with
  | network a hact | note n hact =>
    obtain rfl := Option.some.inj (hm.symm.trans hm')
    exact .of_apart (job?_of_mayAct hact i) nofun nofun
  | call j c t hact ht =>
    by_cases hij : j = i
    · subst hij
      cases hs.symm.trans ht
      rw [(w.manager?_put (lt_of_manager? hm) _ j).trans (if_pos rfl)] at hm'
      cases hm'
      exact service_of_call hs hcoh (job?_of_mayAct hact j) c
    · rw [manager?_put_of_ne w hij, hm] at hm'
      cases hm'
      refine .of_apart (job?_of_mayAct hact i) ?_ nofun
      rintro d he
      cases he
      exact hij rfl
  | create p hact =>
    rw [manager?_create, if_neg (Nat.ne_of_gt (lt_of_manager? hm)), hm] at hm'
    cases hm'
    exact .of_apart (job?_of_mayAct hact i) nofun nofun
  | release j t hact hj ht =>
    rw [manager?_release ht] at hm'
    split at hm'
    · cases hm'
    · rw [hm] at hm'
      cases hm'
      exact .of_apart (job?_of_mayAct hact i) nofun nofun
  | begin j t hact hj ht =>
    refine (?_ : m.front = m'.front) ▸ .of_apart (job?_of_mayAct hact i) nofun nofun
    rw [manager?_begin ht] at hm'
    split at hm'
    · next hij =>
      subst hij
      cases hs.symm.trans ht
      cases hm'
      rfl
    · rw [hm] at hm'
      cases hm'
      rfl
  | proceed j a fs t hf ht =>
    rw [proceed_eq] at hm' ⊢
    dsimp only at hm' ⊢
    by_cases hij : j = i
    · subst hij
      cases hs.symm.trans ht
      have hrun := service_of_job hs hcoh hwithin (job?_eq_some_iff.mpr ⟨fs, hf⟩)
      rw [manager?_during (lt_of_manager? hm)] at hm'
      cases hm'
      rw [Site.front_callout]
      exact hrun
    · rw [manager?_during_of_ne hij, hm] at hm'
      cases hm'
      refine .of_apart (job?_of_frames hf (.inr hij)) nofun fun n he => ?_
      cases hn : (a.next t).2.2 with
      | none =>
        rw [hn] at he
        cases he
      | some n' =>
        rw [hn] at he
        cases he
        exact hij rfl
  | leave j a n fs t hf ht =>
    refine (?_ : m.front = m'.front) ▸ .of_apart (job?_of_frames hf (.inl nofun)) nofun nofun
    by_cases hij : j = i
    · subst hij
      cases hs.symm.trans ht
      rw [manager?_during (lt_of_manager? hm)] at hm'
      cases hm'
      rw [Site.front_leave]
    · rw [manager?_during_of_ne hij, hm] at hm'
      cases hm'
      rfl

/-- A step as the front of manager `i` sees it. -/
inductive Serves (w : Moment κ) (i : Nat) (w' : Moment κ) : Move κ → Outcome κ → Prop where
  | away (mv : Move κ) (o : Outcome κ) (hm : w.manager? i = none) (hm' : w'.manager? i = none)
      (ho : ∀ n, o ≠ .notice i n) (hc : ∀ c, mv ≠ .call i c) : Serves w i w' mv o
  | born (p : Options) (hi : w.managers.length = i)
      (hm : w'.manager? i = some (Manager.create p w.ports).1) : Serves w i w' (.create p) .done
  | gone (m : Manager κ) (hm : w.manager? i = some m) (hm' : w'.manager? i = none) :
      Serves w i w' (.release i) .done
  | serves (mv : Move κ) (o : Outcome κ) (m m' : Manager κ) (hm : w.manager? i = some m)
      (hm' : w'.manager? i = some m') (hs : Service w i m.front mv o m'.front)
      (hr : mv ≠ .release i) : Serves w i w' mv o

lemma Step.serves {mv : Move κ} {o : Outcome κ} (h : Step w mv o w') (hw : w.Orderly)
    (hwithin : ∀ m, w.manager? i = some m → m.Within) : Serves w i w' mv o := by
  have hserve : ∀ m m', w.manager? i = some m → w'.manager? i = some m' → mv ≠ .release i →
      Serves w i w' mv o := fun m m' hm hm' hr =>
    .serves mv o m m' hm hm' (h.service hw hm (hwithin m hm) hm') hr
  cases h.view hw i with
  | apart mv o hm ha hn hc hb hr =>
    cases hm' : w.manager? i with
    | none => exact .away mv o hm' (hm.trans hm') hn hc
    | some m => exact hserve m m hm' (hm.trans hm') hr
  | born p hi hm ha => exact .born p hi hm
  | gone hm ha ha' =>
    cases hm' : w.manager? i with
    | none => exact .away _ _ hm' hm nofun nofun
    | some m => exact .gone m hm' hm
  | begin s hs hs' ha ha' =>
    exact hserve _ _ (manager?_of_site? hs) (manager?_of_site? hs') nofun
  | call c s hs hs' ha =>
    exact hserve _ _ (manager?_of_site? hs) (manager?_of_site? hs') nofun
  | job a s hs ha hs' ha' =>
    exact hserve _ _ (manager?_of_site? hs) (manager?_of_site? hs') nofun
  | leave s hs hs' ha =>
    exact hserve _ _ (manager?_of_site? hs) (manager?_of_site? hs') nofun

lemma Reaches.serves {ports : PortSource} (hreach : (initial ports).Reaches w) {mv : Move κ}
    {o : Outcome κ} (h : Step w mv o w') (i : Nat) : Serves w i w' mv o :=
  h.serves hreach.orderly fun _ hm => hreach.within hm

end Moment

end BoundedStreams
