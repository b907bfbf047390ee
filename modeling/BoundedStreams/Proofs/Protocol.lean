import BoundedStreams.Proofs.Traffic

/-! What a network reports of a connection, whoever calls it and in whatever order: an arrival, then
what passes while it is open, then at most one end. -/

namespace BoundedStreams

/-- What is reported of a connection between its arrival and its end. -/
def EventKind.passing : EventKind → Bool
  | .received | .sent | .timer | .poll => true
  | .accepted _ | .closed => false

def kindsOf (s : SocketId) (es : List SocketEvent) : List EventKind :=
  (es.filter (·.socket = s)).map (·.kind)

/-- An arrival at the listener `l`, then what passes, then at most one end. -/
def Life (l : SocketId) (ks : List EventKind) : Prop :=
  ∃ body, (∀ k ∈ body, k.passing = true) ∧
    (ks = .accepted l :: body ∨ ks = .accepted l :: body ++ [.closed])

lemma kindsOf_append (s : SocketId) (es fs : List SocketEvent) :
    kindsOf s (es ++ fs) = kindsOf s es ++ kindsOf s fs := by
  rw [kindsOf, List.filter_append, List.map_append, kindsOf, kindsOf]

lemma kindsOf_singleton (s t : SocketId) (k : EventKind) :
    kindsOf s [⟨t, k⟩] = if t = s then [k] else [] := by
  by_cases h : t = s <;> simp [kindsOf, h]

lemma mem_kindsOf_iff {s : SocketId} {es : List SocketEvent} {k : EventKind} :
    k ∈ kindsOf s es ↔ ⟨s, k⟩ ∈ es := by
  rw [kindsOf, List.mem_map]
  constructor
  · rintro ⟨⟨t, k'⟩, ht, rfl⟩
    rw [List.mem_filter, decide_eq_true_eq] at ht
    obtain ⟨hmem, rfl⟩ := ht
    exact hmem
  · intro h
    exact ⟨_, List.mem_filter.mpr ⟨h, by simp⟩, rfl⟩

/-- What was reported up to some point of a life is a life as well, unless it is nothing yet. -/
lemma Life.of_prefix {l : SocketId} {ks ks' : List EventKind} (h : Life l (ks ++ ks'))
    (hne : ks ≠ []) : Life l ks := by
  obtain ⟨k, ks, rfl⟩ := List.exists_cons_of_ne_nil hne
  obtain ⟨body, hbody, h⟩ := h
  rcases h with h | h
  · obtain ⟨rfl, rfl⟩ := List.cons.inj h
    exact ⟨ks, fun k hk => hbody k (List.mem_append_left _ hk), .inl rfl⟩
  -- Only the last kind of the whole life is an end.
  · rcases List.eq_nil_or_concat ks' with rfl | ⟨ks', e, rfl⟩
    · rw [List.append_nil] at h
      exact ⟨body, hbody, .inr h⟩
    · rw [List.concat_eq_append, ← List.append_assoc] at h
      obtain ⟨rfl, rfl⟩ := List.cons.inj (List.append_inj' h rfl).1
      exact ⟨ks, fun k hk => hbody k (List.mem_append_left _ hk), .inl rfl⟩

namespace Table

variable {α β : Type} [DecidableEq α]

lemma entries_set_of_ne {t : Table α β} {k : α} {b : β} (h : ∀ e ∈ t.entries, e.1 ≠ k) :
    (t.set k b).entries = t.entries ++ [(k, b)] := by
  obtain ⟨es⟩ := t
  simp only [set] at h ⊢
  induction es with
  | nil => rfl
  | cons e es ih =>
    rw [replace, if_neg (h e List.mem_cons_self), ih fun f hf => h f (List.mem_cons_of_mem _ hf),
      List.cons_append]

lemma get?_eq_some_iff_mem {t : Table α β} (h : t.entries.Pairwise fun e f => e.1 ≠ f.1) {k : α}
    {b : β} : t.get? k = some b ↔ (k, b) ∈ t.entries := by
  obtain ⟨es⟩ := t
  simp only [get?] at h ⊢
  induction es with
  | nil => simp [find]
  | cons e es ih =>
    obtain ⟨hne, h⟩ := List.pairwise_cons.mp h
    rw [find, List.mem_cons]
    by_cases he : e.1 = k
    · have hnot : (k, b) ∉ es := fun hmem => hne _ hmem he
      rw [if_pos he, Option.some.injEq]
      constructor
      · rintro rfl
        exact .inl (Prod.ext he.symm rfl)
      · rintro (rfl | hmem)
        · rfl
        · exact absurd hmem hnot
    · rw [if_neg he, ih h, or_iff_right]
      rintro rfl
      exact he rfl

end Table

namespace Network

/-! ### Calls and their answers -/

abbrev Log := List (Action × Reply)

def log (n : Network) : List Action → Log
  | [] => []
  | a :: as => (a, (n.perform a).1) :: (n.perform a).2.log as

def after (n : Network) : List Action → Network
  | [] => n
  | a :: as => (n.perform a).2.after as

def Reply.batch : Reply → List SocketEvent
  | .events es => es
  | _ => []

/-- The id that an answer gives out for a new connection or a new listener. -/
def Reply.issued? : Reply → Option SocketId
  | .socket s => s
  | .bound (.ok (s, _)) => some s
  | _ => none

/-- All that was polled, in its order. -/
def polled (es : Log) : List SocketEvent := es.flatMap (·.2.batch)

def issued (es : Log) : List SocketId := es.filterMap (·.2.issued?)

lemma log_append (n : Network) (as as' : List Action) :
    n.log (as ++ as') = n.log as ++ (n.after as).log as' := by
  induction as generalizing n with
  | nil => rfl
  | cons a as ih => rw [List.cons_append, log, log, ih, after, List.cons_append]

lemma after_append (n : Network) (as as' : List Action) :
    n.after (as ++ as') = (n.after as).after as' := by
  induction as generalizing n with
  | nil => rfl
  | cons a as ih => rw [List.cons_append, after, after, ih]

lemma log_actions (n : Network) (as : List Action) : (n.log as).map (·.1) = as := by
  induction as generalizing n with
  | nil => rfl
  | cons a as ih => rw [log, List.map_cons, ih]

/-- Every entry of a log is an action of the network at that point, with its answer. -/
lemma log_split {n : Network} {as : List Action} {first rest : Log} {a : Action} {r : Reply}
    (h : n.log as = first ++ (a, r) :: rest) :
    ∃ as₁ as₂, as = as₁ ++ a :: as₂ ∧ n.log as₁ = first ∧ r = ((n.after as₁).perform a).1 ∧
      rest = ((n.after as₁).perform a).2.log as₂ := by
  have has : as = first.map (·.1) ++ a :: rest.map (·.1) := by
    rw [← n.log_actions as, h, List.map_append, List.map_cons]
  rw [has, log_append, log] at h
  have hlen : (n.log (first.map (·.1))).length = first.length := by
    simpa using congrArg List.length (n.log_actions (first.map (·.1)))
  obtain ⟨hfirst, hrest⟩ := List.append_inj h hlen
  obtain ⟨he, hrest⟩ := List.cons.inj hrest
  exact ⟨_, _, has, hfirst, (Prod.mk.inj he).2.symm, hrest.symm⟩

/-- What holds at first and is kept by every action holds after every run. -/
lemma after_invariant {P : Log → Network → Prop} {n : Network}
    (hstep : ∀ past n a, P past n → P (past ++ [(a, (n.perform a).1)]) (n.perform a).2)
    (as : List Action) (past : Log) (h : P past n) : P (past ++ n.log as) (n.after as) := by
  induction as generalizing n past with
  | nil =>
    rw [log, List.append_nil]
    exact h
  | cons a as ih =>
    rw [log, after, List.append_cons]
    exact ih _ (hstep past n a h)

/-! ### What an action does to one connection -/

lemma nextId_le_perform (n : Network) (a : Action) : n.nextId ≤ (n.perform a).2.nextId := by
  have h := n.shift_perform a
  generalize (n.perform a).2 = n' at h
  cases h with
  | quiet h | peerSend s bs h => exact h.nextId
  | connect p l => exact Nat.le_succ _
  | close c => exact Nat.le_of_eq (n.nextId_close c).symm
  | poll => exact Nat.le_refl _

lemma wasClosed_close (n : Network) (c s : SocketId) : (n.close c).wasClosed s = true ↔
    n.wasClosed s = true ∨ n.isOpen s = true ∧ c = s := by
  simp only [close, wasClosed, isOpen]
  split
  · next h =>
    rw [List.contains_iff_mem, List.contains_iff_mem, List.mem_append, List.mem_singleton]
    constructor
    · rintro (h' | rfl)
      · exact .inl h'
      · exact .inr ⟨h, rfl⟩
    · rintro (h' | ⟨-, rfl⟩)
      · exact .inl h'
      · exact .inr rfl
  · next h =>
    constructor
    · exact .inl
    · rintro (h' | ⟨h', rfl⟩)
      · exact h'
      · exact absurd h' h

/-- Either side ends the connection `s`. -/
def Action.Ends (a : Action) (s : SocketId) : Prop := a = .peerClose s ∨ a = .abort s

/-- A port that nobody listens on is given to a listener with a new id. -/
lemma bind_cases (n : Network) (p : Port) : ∃ q m, m.closed = n.closed ∧
    m.listeners = n.listeners ∧ m.nextId = n.nextId ∧ (n.bind p = (.error ⟨q⟩, m) ∨
      n.isListening q = false ∧ n.bind p = (.ok (⟨n.nextId⟩, q),
        { m with nextId := n.nextId + 1, listeners := n.listeners.set ⟨n.nextId⟩ q })) := by
  have h : (n.assignPort p).2.closed = n.closed ∧ (n.assignPort p).2.listeners = n.listeners ∧
      (n.assignPort p).2.nextId = n.nextId := by
    obtain ⟨q, hq⟩ := n.assignPort_snd p
    rw [hq]
    exact ⟨rfl, rfl, rfl⟩
  rw [bind]
  generalize n.assignPort p = a at h
  obtain ⟨q, m⟩ := a
  obtain ⟨hc, hl, hn⟩ := h
  refine ⟨q, m, hc, hl, hn, ?_⟩
  have hsame : m.isListening q = n.isListening q := by
    rw [isListening, listenerOn?, hl, isListening, listenerOn?]
  dsimp only at hl hn ⊢
  rw [hsame, hl, hn]
  cases n.isListening q with
  | true => exact .inl rfl
  | false => exact .inr ⟨rfl, rfl⟩

/-- Connections end from either side only, and listeners come and go at their owner's request. -/
lemma frame_perform (n : Network) (a : Action) :
    ((n.perform a).2.closed = n.closed ∨ ∃ s, a.Ends s) ∧
      ((n.perform a).2.listeners = n.listeners ∨ (∃ p, a = .bind p) ∨ ∃ s, a = .closeListener s) := by
  have hclose : ∀ s, (n.close s).listeners = n.listeners := by
    intro s
    rw [close]
    split <;> rfl
  have hkeep : ∀ n' : Network, n'.closed = n.closed → n'.listeners = n.listeners →
      (n'.closed = n.closed ∨ ∃ s, a.Ends s) ∧ (n'.listeners = n.listeners ∨ (∃ p, a = .bind p) ∨
        ∃ s, a = .closeListener s) := fun n' hc hl => ⟨.inl hc, .inl hl⟩
  cases a with
  | peerClose s => exact ⟨.inr ⟨s, .inl rfl⟩, .inl (hclose s)⟩
  | abort s => exact ⟨.inr ⟨s, .inr rfl⟩, .inl (hclose s)⟩
  | bind p =>
    obtain ⟨q, m, hc, -, -, h⟩ := n.bind_cases p
    refine ⟨.inl ?_, .inr (.inl ⟨p, rfl⟩)⟩
    simp only [perform]
    rcases h with h | ⟨-, h⟩ <;> rw [h] <;> exact hc
  | closeListener s => exact ⟨.inl rfl, .inr (.inr ⟨s, rfl⟩)⟩
  | advance d =>
    simp only [perform, advance]
    split <;> exact hkeep _ rfl rfl
  | connect p =>
    simp only [perform, connect]
    split <;> exact hkeep _ rfl rfl
  | peerSend s bs =>
    simp only [perform, peerSend]
    split <;> exact hkeep _ rfl rfl
  | peerTake s =>
    simp only [perform, peerTake]
    split <;> exact hkeep _ rfl rfl
  | schedule s d =>
    simp only [perform, schedule]
    split <;> exact hkeep _ rfl rfl
  | recv s k =>
    simp only [perform, recv]
    split <;> exact hkeep _ rfl rfl
  | stall s on | timer s | socket s | listening p | openCount | now | send s bs
  | poll => exact hkeep _ rfl rfl

lemma wasClosed_perform (n : Network) (a : Action) (s : SocketId) :
    (n.perform a).2.wasClosed s = true ↔
      n.wasClosed s = true ∨ n.isOpen s = true ∧ a.Ends s := by
  rcases (n.frame_perform a).1 with h | ⟨t, rfl | rfl⟩
  · rw [wasClosed, h, wasClosed, iff_self_or]
    rintro ⟨ho, ha⟩
    have hopen : n.connections.contains s = true := ho
    have hclose : (n.perform a).2 = n.close s := by rcases ha with rfl | rfl <;> rfl
    rw [hclose, close, if_pos hopen] at h
    exact absurd h (by simp)
  · simp [perform, Action.Ends, wasClosed_close]
  · simp [perform, Action.Ends, wasClosed_close]

/-- What an action that makes `n'` of `n` does to the connection `s` when it adds the events `es` to
those reported. -/
inductive Effect (n : Network) (a : Action) (n' : Network) (es : List SocketEvent) (s : SocketId) :
    Prop where
  | passed (hk : ∀ k ∈ kindsOf s es, k.passing = true ∧ n.isOpen s = true)
      (ho : n'.isOpen s = n.isOpen s)
  | arrived (p : Port) (l : SocketId) (hl : n.listenerOn? p = some l) (hs : s.num = n.nextId)
      (hn : n'.nextId = n.nextId + 1) (hk : kindsOf s es = [.accepted l]) (ho : n'.isOpen s = true)
  | ended (ha : a.Ends s) (hk : kindsOf s es = [.closed]) (ho : n.isOpen s = true)
      (ho' : n'.isOpen s = false)

lemma effect_of_sameTraffic {n n' : Network} (h : n.SameTraffic n') (a : Action) (s : SocketId) :
    Effect n a n' [] s := .passed (fun _ hk => absurd hk List.not_mem_nil) (h.opened s)

lemma effect_close (n : Network) {a : Action} {c : SocketId} (ha : a.Ends c) (s : SocketId) :
    Effect n a (n.close c) (if n.isOpen c then [⟨c, .closed⟩] else []) s := by
  by_cases hs : c = s
  · subst hs
    cases ho : n.isOpen c with
    | true => exact .ended ha (by simp [kindsOf]) ho (by simp [isOpen_close])
    | false => exact .passed (by simp [kindsOf]) (by simp [isOpen_close, ho])
  · refine .passed (fun k hk => ?_) (by simp [isOpen_close, hs])
    split at hk
    · rw [kindsOf_singleton, if_neg hs] at hk
      cases hk
    · cases hk

lemma connect_of_listening {n : Network} {p : Port} {l : SocketId} (h : n.listenerOn? p = some l) :
    n.connect p = (some ⟨n.nextId⟩, { n with
      nextId := n.nextId + 1
      connections := n.connections.set ⟨n.nextId⟩ .opened
      queue := n.queue ++ [⟨⟨n.nextId⟩, .accepted l⟩] }) := by
  rw [connect, h]

lemma effect_connect {n : Network} {p : Port} {l : SocketId} (hl : n.listenerOn? p = some l)
    (s : SocketId) : Effect n (.connect p) { n with
      nextId := n.nextId + 1
      connections := n.connections.set ⟨n.nextId⟩ .opened
      queue := n.queue ++ [⟨⟨n.nextId⟩, .accepted l⟩] } [⟨⟨n.nextId⟩, .accepted l⟩] s := by
  by_cases hs : (⟨n.nextId⟩ : SocketId) = s
  · subst hs
    refine .arrived p l hl rfl rfl (by simp [kindsOf]) ?_
    simp [isOpen, Table.contains, Table.get?_set]
  · refine .passed (fun k hk => ?_) ?_
    · rw [kindsOf_singleton, if_neg hs] at hk
      cases hk
    · simp [isOpen, Table.contains, Table.get?_set, hs]

lemma effect_peerSend {n n' : Network} (h : n.SameTraffic n') {c : SocketId}
    (hc : n.isOpen c = true) (a : Action) (s : SocketId) :
    Effect n a (n'.enqueue c .received) [⟨c, .received⟩] s := by
  refine .passed (fun k hk => ?_) (h.opened s)
  rw [kindsOf_singleton] at hk
  split at hk
  · next hs =>
    rw [List.mem_singleton.mp hk, ← hs]
    exact ⟨rfl, hc⟩
  · cases hk

/-- A poll ticks the open connections only. -/
lemma effect_poll (n : Network) : ∃ ticks, n.poll.1 = n.queue ++ ticks ∧
    ∀ s, Effect n .poll n.poll.2 ticks s := by
  refine ⟨_, rfl, fun s => .passed (fun k hk => ?_) (n.isOpen_poll s)⟩
  obtain ⟨⟨t, c⟩, ht, hmem⟩ := List.mem_flatMap.mp (mem_kindsOf_iff.mp hk)
  obtain ⟨k', hk', he⟩ := List.mem_map.mp hmem
  cases he
  obtain ⟨hacc, hend⟩ := tick_ne_accepted hk'
  refine ⟨?_, (Table.mem_keys_iff _ _).mp (List.mem_map_of_mem (f := (·.1)) ht)⟩
  cases k with
  | accepted l => exact absurd rfl (hacc l)
  | closed => exact absurd rfl hend
  | received | sent | timer | poll => rfl

lemma effect_perform (n : Network) (a : Action) : ∃ news,
    (n.perform a).1.batch ++ (n.perform a).2.queue = n.queue ++ news ∧
      ∀ s, Effect n a (n.perform a).2 news s := by
  have hquiet : ∀ {r : Reply} {n' : Network} {a : Action}, r.batch = [] → n.SameTraffic n' → ∃ news,
      r.batch ++ n'.queue = n.queue ++ news ∧ ∀ s, Effect n a n' news s := by
    intro r n' a hr ht
    exact ⟨[], by rw [hr, ht.queue, List.nil_append, List.append_nil], effect_of_sameTraffic ht a⟩
  cases a with
  | peerClose c => exact ⟨_, n.queue_close c, n.effect_close (.inl rfl)⟩
  | abort c => exact ⟨_, n.queue_close c, n.effect_close (.inr rfl)⟩
  | connect p =>
    simp only [perform]
    cases hl : n.listenerOn? p with
    | none =>
      rw [connect, hl]
      exact hquiet rfl (.refl n)
    | some l =>
      rw [connect_of_listening hl]
      exact ⟨_, rfl, effect_connect hl⟩
  | peerSend c bs =>
    simp only [perform, peerSend]
    split
    · next hc => exact ⟨_, rfl, effect_peerSend (n.sameTraffic_update c _) hc _⟩
    · exact hquiet rfl (.refl n)
  | poll =>
    obtain ⟨ticks, heq, heff⟩ := n.effect_poll
    exact ⟨ticks, (List.append_nil _).trans heq, heff⟩
  | advance d => exact hquiet rfl (n.sameTraffic_advance d)
  | peerTake s => exact hquiet rfl (n.sameTraffic_peerTake s)
  | stall s on => exact hquiet rfl (n.sameTraffic_update s _)
  | timer s | socket s | listening p | openCount | now => exact hquiet rfl (.refl n)
  | bind p => exact hquiet rfl (n.sameTraffic_bind p)
  | closeListener s => exact hquiet rfl (n.sameTraffic_closeListener s)
  | send s bs => exact hquiet rfl (n.sameTraffic_update s _)
  | schedule s d => exact hquiet rfl (n.sameTraffic_schedule s d)
  | recv s k => exact hquiet rfl (n.sameTraffic_recv s k)

/-! ### The life of a connection -/

/-- The events reported in a log and those that still wait. -/
def heard (past : Log) (n : Network) : List SocketEvent := polled past ++ n.queue

lemma heard_perform (past : Log) (n : Network) (a : Action) : ∃ news,
    heard (past ++ [(a, (n.perform a).1)]) (n.perform a).2 = heard past n ++ news ∧
      ∀ s, Effect n a (n.perform a).2 news s := by
  obtain ⟨news, hq, heff⟩ := n.effect_perform a
  refine ⟨news, ?_, heff⟩
  simp only [heard, polled, List.flatMap_append, List.flatMap_cons, List.flatMap_nil,
    List.append_nil, List.append_assoc, hq]

/-- Nothing was heard of the ids that are still to be given out. -/
def Unborn (past : Log) (n : Network) : Prop :=
  ∀ s : SocketId, n.nextId ≤ s.num →
    kindsOf s (heard past n) = [] ∧ n.isOpen s = false ∧ n.wasClosed s = false

lemma Unborn.perform {past : Log} {n : Network} (h : Unborn past n) (a : Action) :
    Unborn (past ++ [(a, (n.perform a).1)]) (n.perform a).2 := by
  intro s hs
  obtain ⟨hk, ho, hc⟩ := h s (Nat.le_trans (n.nextId_le_perform a) hs)
  obtain ⟨news, hheard, heff⟩ := heard_perform past n a
  have hc' : (n.perform a).2.wasClosed s = false := by
    rw [Bool.eq_false_iff, ne_eq, n.wasClosed_perform a s, hc, ho]
    simp
  rw [hheard, kindsOf_append, hk, List.nil_append]
  cases heff s with
  | passed hk' ho' =>
    refine ⟨List.eq_nil_iff_forall_not_mem.mpr fun k hmem => ?_, ho'.trans ho, hc'⟩
    have hopen := (hk' k hmem).2
    rw [ho] at hopen
    cases hopen
  | arrived p l hl hnum hn hk' ho' => omega
  | ended ha hk' hopen ho' =>
    rw [ho] at hopen
    cases hopen

lemma unborn_initial : Unborn [] initial := by
  intro s hs
  simp [heard, polled, kindsOf, initial, isOpen, wasClosed, Table.contains]

/-- The connection `s`, which arrived at the listener `l`, is open or closed, and what was heard of it
is its life up to now. -/
structure Known (past : Log) (n : Network) (l s : SocketId) : Prop where
  num : s.num < n.nextId
  either : n.isOpen s = !n.wasClosed s
  life : ∃ body, (∀ k ∈ body, k.passing = true) ∧
    kindsOf s (heard past n) = .accepted l :: body ++ if n.wasClosed s then [.closed] else []

lemma Action.Ends.isOpen_perform {a : Action} {s : SocketId} (h : a.Ends s) (n : Network) :
    (n.perform a).2.isOpen s = false := by
  rcases h with rfl | rfl <;> simp [perform, isOpen_close]

lemma Known.perform {past : Log} {n : Network} {l s : SocketId} (h : Known past n l s)
    (a : Action) : Known (past ++ [(a, (n.perform a).1)]) (n.perform a).2 l s := by
  obtain ⟨hnum, heither, body, hbody, hlife⟩ := h
  obtain ⟨news, hheard, heff⟩ := heard_perform past n a
  have hclosed := n.wasClosed_perform a s
  have hnum' := Nat.lt_of_lt_of_le hnum (n.nextId_le_perform a)
  cases heff s with
  | passed hk ho =>
    have hsame : (n.perform a).2.wasClosed s = n.wasClosed s := by
      rw [Bool.eq_iff_iff, hclosed, or_iff_left_iff_imp]
      rintro ⟨hopen, ha⟩
      rw [ha.isOpen_perform n, hopen] at ho
      cases ho
    cases hw : n.wasClosed s with
    | true =>
      -- Nothing passes in a closed connection.
      have hnil : kindsOf s news = [] := by
        refine List.eq_nil_iff_forall_not_mem.mpr fun k hmem => ?_
        have hopen := (hk k hmem).2
        rw [heither, hw] at hopen
        cases hopen
      refine ⟨hnum', by rw [hsame, ho, heither], body, hbody, ?_⟩
      rw [hheard, kindsOf_append, hlife, hnil, List.append_nil, hsame]
    | false =>
      refine ⟨hnum', by rw [hsame, ho, heither], body ++ kindsOf s news, fun k hmem => ?_, ?_⟩
      · rcases List.mem_append.mp hmem with hmem | hmem
        · exact hbody k hmem
        · exact (hk k hmem).1
      · rw [hheard, kindsOf_append, hlife, hsame, hw]
        simp
  -- An arrival takes the next id, and `s` has an older one.
  | arrived p l' hl hs hn hk ho => omega
  | ended ha hk hopen ho =>
    have hw : n.wasClosed s = false := by
      rw [heither] at hopen
      simpa using hopen
    have hw' : (n.perform a).2.wasClosed s = true := hclosed.mpr (.inr ⟨hopen, ha⟩)
    refine ⟨hnum', by rw [ho, hw']; rfl, body, hbody, ?_⟩
    rw [hheard, kindsOf_append, hlife, hk, hw, hw']
    simp

/-! ### Ids and ports -/

lemma issued?_perform {n : Network} {a : Action} {s : SocketId}
    (h : (n.perform a).1.issued? = some s) :
    s = ⟨n.nextId⟩ ∧ (n.perform a).2.nextId = n.nextId + 1 := by
  cases a with
  | connect p =>
    simp only [perform] at h ⊢
    rcases n.connect_eq p with he | ⟨l, he⟩
    · rw [he] at h
      cases h
    · rw [he] at h ⊢
      cases h
      exact ⟨rfl, rfl⟩
  | bind p =>
    simp only [perform] at h ⊢
    obtain ⟨q, m, -, -, -, he | ⟨-, he⟩⟩ := n.bind_cases p
    · rw [he] at h
      cases h
    · rw [he] at h ⊢
      cases h
      exact ⟨rfl, rfl⟩
  | _ => cases h

/-- No id was given out twice, and the next one was not given out. -/
lemma issued_nodup (as : List Action) : (issued (initial.log as)).Nodup := by
  refine (after_invariant (P := fun past n => (issued past).Nodup ∧
    ∀ s ∈ issued past, s.num < n.nextId) (fun past n a ⟨hnodup, hlt⟩ => ?_) as []
    ⟨List.nodup_nil, nofun⟩).1
  have hle := n.nextId_le_perform a
  rw [issued, List.filterMap_append]
  cases hs : (n.perform a).1.issued? with
  | none =>
    simp only [List.filterMap_cons, hs, List.filterMap_nil, List.append_nil]
    exact ⟨hnodup, fun s hmem => Nat.lt_of_lt_of_le (hlt s hmem) hle⟩
  | some s =>
    obtain ⟨rfl, hn⟩ := issued?_perform hs
    simp only [List.filterMap_cons, hs, List.filterMap_nil]
    refine ⟨List.nodup_append.mpr ⟨hnodup, List.nodup_singleton _, ?_⟩, fun t hmem => ?_⟩
    · rintro t ht _ hmem rfl
      have := hlt t ht
      rw [List.mem_singleton.mp hmem] at this
      exact Nat.lt_irrefl _ this
    · rcases List.mem_append.mp hmem with hmem | hmem
      · exact Nat.lt_of_lt_of_le (hlt t hmem) hle
      · rw [List.mem_singleton.mp hmem, hn]
        exact Nat.lt_succ_self _

/-- Listeners differ in id and port, and their ids were given out. -/
structure Apart (n : Network) : Prop where
  apart : n.listeners.entries.Pairwise fun e f => e.1 ≠ f.1 ∧ e.2 ≠ f.2
  known : ∀ e ∈ n.listeners.entries, e.1.num < n.nextId

lemma isListening_eq_false_iff (n : Network) (q : Port) :
    n.isListening q = false ↔ ∀ e ∈ n.listeners.entries, e.2 ≠ q := by
  simp [isListening, listenerOn?, List.find?_eq_none]

lemma Apart.perform {n : Network} (h : n.Apart) (a : Action) : (n.perform a).2.Apart := by
  have hle := n.nextId_le_perform a
  rcases (n.frame_perform a).2 with hl | ⟨p, rfl⟩ | ⟨s, rfl⟩
  · exact ⟨hl ▸ h.apart, fun e he => Nat.lt_of_lt_of_le (h.known e (hl ▸ he)) hle⟩
  · obtain ⟨q, m, -, hl, hn, he | ⟨hq, he⟩⟩ := n.bind_cases p
    · simp only [Network.perform, he]
      exact ⟨hl ▸ h.apart, fun e hmem => hn ▸ h.known e (hl ▸ hmem)⟩
    · have hfree := (n.isListening_eq_false_iff q).mp hq
      have hnew : ∀ e ∈ n.listeners.entries, e.1 ≠ ⟨n.nextId⟩ := by
        intro e hmem he'
        have := h.known e hmem
        rw [he'] at this
        exact Nat.lt_irrefl _ this
      simp only [Network.perform, he]
      refine ⟨?_, fun e hmem => ?_⟩
      · rw [Table.entries_set_of_ne hnew, List.pairwise_append]
        refine ⟨h.apart, List.pairwise_singleton _ _, fun e hmem f hf => ?_⟩
        rw [List.mem_singleton.mp hf]
        exact ⟨hnew e hmem, hfree e hmem⟩
      · rw [Table.entries_set_of_ne hnew, List.mem_append, List.mem_singleton] at hmem
        rcases hmem with hmem | rfl
        · exact Nat.lt_succ_of_lt (h.known e hmem)
        · exact Nat.lt_succ_self _
  · exact ⟨h.apart.filter _, fun e hmem => h.known e (List.mem_of_mem_filter hmem)⟩

lemma Apart.get?_eq_some_iff {n : Network} (h : n.Apart) {l : SocketId} {q : Port} :
    n.listeners.get? l = some q ↔ (l, q) ∈ n.listeners.entries :=
  Table.get?_eq_some_iff_mem (h.apart.imp And.left)

/-- A port has at most one listener, so whoever connects meets that one. -/
lemma Apart.listenerOn?_eq_some_iff {n : Network} (h : n.Apart) {l : SocketId} {q : Port} :
    n.listenerOn? q = some l ↔ n.listeners.get? l = some q := by
  rw [h.get?_eq_some_iff, listenerOn?, Option.map_eq_some_iff]
  constructor
  · rintro ⟨⟨l', q'⟩, hfind, rfl⟩
    obtain rfl : q' = q := by simpa using List.find?_some hfind
    exact List.mem_of_find?_eq_some hfind
  · intro hmem
    obtain ⟨e, he⟩ := Option.isSome_iff_exists.mp
      (List.find?_isSome.mpr ⟨(l, q), hmem, decide_eq_true rfl⟩ :
        (n.listeners.entries.find? (·.2 = q)).isSome)
    have hq : e.2 = q := by simpa using List.find?_some he
    have hports : (n.listeners.entries.map (·.2)).Nodup :=
      List.pairwise_map.mpr (h.apart.imp And.right)
    have hsame : e = (l, q) := List.inj_on_of_nodup_map hports (List.mem_of_find?_eq_some he) hmem hq
    exact ⟨e, he, congrArg Prod.fst hsame⟩

lemma apart_initial : initial.Apart := ⟨.nil, fun _ he => absurd he List.not_mem_nil⟩

lemma apart_after (as : List Action) : (initial.after as).Apart :=
  after_invariant (P := fun _ n => n.Apart) (fun _ _ a h => h.perform a) as [] apart_initial

/-- A connection arrives at a listener whose id was given out before. -/
lemma accepted_lt (as : List Action) {c l : SocketId}
    (h : ⟨c, .accepted l⟩ ∈ heard (initial.log as) (initial.after as)) :
    l.num < (initial.after as).nextId := by
  refine (after_invariant (P := fun past n => n.Apart ∧
    ∀ c l, ⟨c, .accepted l⟩ ∈ heard past n → l.num < n.nextId) (fun past n a ⟨hapart, hlt⟩ =>
      ⟨hapart.perform a, fun c l hmem => ?_⟩) as [] ⟨apart_initial,
      fun _ _ hmem => absurd hmem List.not_mem_nil⟩).2 c l h
  apply Nat.lt_of_lt_of_le _ (n.nextId_le_perform a)
  obtain ⟨news, hheard, heff⟩ := heard_perform past n a
  rw [hheard, List.mem_append] at hmem
  rcases hmem with hmem | hmem
  · exact hlt c l hmem
  · have hk := mem_kindsOf_iff.mpr hmem
    cases heff c with
    | passed hpass ho => exact absurd (hpass _ hk).1 nofun
    | arrived p l' hl hs hn hk' ho =>
      rw [hk', List.mem_singleton] at hk
      cases hk
      rw [hapart.listenerOn?_eq_some_iff, hapart.get?_eq_some_iff] at hl
      exact hapart.known _ hl
    | ended ha hk' ho ho' =>
      rw [hk', List.mem_singleton] at hk
      cases hk

/-- A connection that a port accepts is known from then on. -/
lemma Unborn.connect {past : Log} {n : Network} (h : Unborn past n) {p : Port} {s : SocketId}
    (hs : (n.connect p).1 = some s) : ∃ l, n.listenerOn? p = some l ∧
      (n.connect p).2.wasClosed s = false ∧
      Known (past ++ [(.connect p, .socket (some s))]) (n.connect p).2 l s := by
  cases hl : n.listenerOn? p with
  | none =>
    rw [Network.connect, hl] at hs
    cases hs
  | some l =>
    rw [connect_of_listening hl] at hs ⊢
    cases hs
    obtain ⟨hk, -, hw⟩ := h ⟨n.nextId⟩ (Nat.le_refl _)
    have hheard : heard (past ++ [(.connect p, .socket (some ⟨n.nextId⟩))]) { n with
        nextId := n.nextId + 1
        connections := n.connections.set ⟨n.nextId⟩ .opened
        queue := n.queue ++ [⟨⟨n.nextId⟩, .accepted l⟩] } =
          heard past n ++ [⟨⟨n.nextId⟩, .accepted l⟩] := by
      simp [heard, polled, Reply.batch]
    refine ⟨l, rfl, hw, Nat.lt_succ_self _, ?_, [], List.forall_mem_nil _, ?_⟩
    · have hopen : (n.connections.set ⟨n.nextId⟩ .opened).contains ⟨n.nextId⟩ = true := by
        simp [Table.contains, Table.get?_set]
      exact hopen.trans (congrArg (!·) hw).symm
    · rw [hheard, kindsOf_append, hk, kindsOf_singleton, if_pos rfl]
      exact (congrArg (EventKind.accepted l :: if · = true then [EventKind.closed] else []) hw).symm

lemma Known.life_heard {past : Log} {n : Network} {l s : SocketId} (h : Known past n l s) :
    Life l (kindsOf s (heard past n)) := by
  obtain ⟨-, -, body, hbody, hk⟩ := h
  refine ⟨body, hbody, ?_⟩
  rw [hk]
  cases n.wasClosed s with
  | true => exact .inr rfl
  | false => exact .inl (List.append_nil _)

lemma Known.closed_mem_iff {past : Log} {n : Network} {l s : SocketId} (h : Known past n l s) :
    .closed ∈ kindsOf s (heard past n) ↔ n.wasClosed s = true := by
  obtain ⟨-, -, body, hbody, hk⟩ := h
  have hnot : EventKind.closed ∉ body := fun hmem => nomatch hbody _ hmem
  rw [hk]
  cases n.wasClosed s <;> simp [hnot]

/-- A known connection was closed since if and only if it was ended since. -/
lemma Known.wasClosed_after {past : Log} {n : Network} {l s : SocketId} (h : Known past n l s)
    (as : List Action) : (n.after as).wasClosed s = true ↔
      n.wasClosed s = true ∨ ∃ a ∈ as, a.Ends s := by
  induction as generalizing past n with
  | nil => simp [after]
  | cons a as ih =>
    rw [after, ih (h.perform a), n.wasClosed_perform a s, h.either]
    simp only [List.mem_cons, exists_eq_or_imp]
    cases n.wasClosed s <;> simp

/-- Any number of users call the network in any order. Of each connection that it hands out, the polls
report a life: the arrival at the listener of the port first, and at most one end, last. When the queue
is empty, the end was reported if either side ended the connection, and then only. The connection is
open until then and closed from then on, its id is not used again, and no two listeners share a port. -/
theorem event_protocol (as : List Action) :
    let n := initial.after as
    let es := initial.log as
    (∀ a b q, n.listeners.get? a = some q → n.listeners.get? b = some q → a = b) ∧
    (∀ q l, n.listenerOn? q = some l ↔ n.listeners.get? l = some q) ∧
    ∀ first rest p s, es = first ++ (.connect p, .socket (some s)) :: rest →
      (∃ l, (initial.after (first.map (·.1))).listenerOn? p = some l ∧
        (kindsOf s (polled es) = [] ∨ Life l (kindsOf s (polled es))) ∧
        (n.queue = [] → Life l (kindsOf s (polled es)) ∧
          (.closed ∈ kindsOf s (polled es) ↔ ∃ a ∈ rest.map (·.1), a.Ends s))) ∧
      (n.wasClosed s = true ↔ ∃ a ∈ rest.map (·.1), a.Ends s) ∧
      (n.isOpen s = !n.wasClosed s) ∧
      s ∉ issued first ∧ s ∉ issued rest := by
  intro n es
  refine ⟨fun a b q ha hb => ?_, fun q l => (apart_after as).listenerOn?_eq_some_iff, ?_⟩
  · rw [← (apart_after as).listenerOn?_eq_some_iff] at ha hb
    exact Option.some.inj (ha.symm.trans hb)
  intro first rest p s he
  obtain ⟨as₁, as₂, has, rfl, hreply, rfl⟩ := log_split he
  have hborn : Unborn (initial.log as₁) (initial.after as₁) :=
    after_invariant (fun _ _ a h => h.perform a) as₁ [] unborn_initial
  obtain ⟨l, hl, hw, hknown⟩ := hborn.connect (Reply.socket.inj hreply).symm
  have hn : n = ((initial.after as₁).connect p).2.after as₂ := by
    show initial.after as = _
    rw [has, after_append, after]
    rfl
  have hlast : Known es n l s := by
    have hafter := after_invariant (P := fun past n => Known past n l s) (fun _ _ a h => h.perform a)
      as₂ _ hknown
    rw [List.append_assoc] at hafter
    rw [hn, he]
    exact hafter
  have hclosed : n.wasClosed s = true ↔ ∃ a ∈ as₂, a.Ends s := by
    rw [hn, hknown.wasClosed_after as₂, hw]
    simp
  -- The ids that were given out are `first`'s, then `s`, then `rest`'s.
  have hnodup : (issued es).Nodup := issued_nodup as
  rw [he, issued, List.filterMap_append, List.filterMap_cons] at hnodup
  obtain ⟨hfirst, hrest⟩ := List.nodup_cons.mp (List.nodup_middle.mp hnodup)
  rw [log_actions, log_actions]
  refine ⟨⟨l, hl, ?_, fun hq => ?_⟩, hclosed, hlast.either, fun h => hfirst (List.mem_append_left _ h),
    fun h => hfirst (List.mem_append_right _ h)⟩
  · have hlife := hlast.life_heard
    rw [heard, kindsOf_append] at hlife
    exact or_iff_not_imp_left.mpr hlife.of_prefix
  · have hall : heard es n = polled es := by rw [heard, hq, List.append_nil]
    rw [← hall, ← hclosed]
    exact ⟨hlast.life_heard, hlast.closed_mem_iff⟩

/-- A peer that closes twice before anything was polled, and an owner that closes once more. -/
def hastyPeer : List Action :=
  [.bind 9000, .connect 9000, .peerSend ⟨2⟩ [1], .peerClose ⟨2⟩, .peerClose ⟨2⟩, .poll, .abort ⟨2⟩,
    .poll]

theorem event_protocol_hastyPeer : ∃ first rest,
    initial.log hastyPeer = first ++ (.connect 9000, .socket (some ⟨2⟩)) :: rest ∧
      kindsOf ⟨2⟩ (polled (initial.log hastyPeer)) = [.accepted ⟨1⟩, .received, .closed] ∧
      Life ⟨1⟩ (kindsOf ⟨2⟩ (polled (initial.log hastyPeer))) ∧
      (initial.after hastyPeer).wasClosed ⟨2⟩ = true ∧
      (initial.after hastyPeer).isOpen ⟨2⟩ = false ∧ ⟨2⟩ ∉ issued rest := by
  have hrun : ∃ first rest,
      initial.log hastyPeer = first ++ (.connect 9000, .socket (some ⟨2⟩)) :: rest ∧
      (initial.after (first.map (·.1))).listenerOn? 9000 = some ⟨1⟩ ∧ .peerClose ⟨2⟩ ∈ rest.map (·.1) :=
    ⟨[(.bind 9000, .bound (.ok (⟨1⟩, 9000)))], _, rfl, rfl, by simp [log]⟩
  obtain ⟨first, rest, hlog, hl, hend⟩ := hrun
  obtain ⟨-, -, hall⟩ := event_protocol hastyPeer
  obtain ⟨⟨l, hl', -, hdrained⟩, hclosed, hopen, -, hfresh⟩ := hall first rest 9000 ⟨2⟩ hlog
  obtain rfl : ⟨1⟩ = l := Option.some.inj (hl.symm.trans hl')
  have hw := hclosed.mpr ⟨_, hend, .inl rfl⟩
  rw [hw] at hopen
  exact ⟨first, rest, hlog, rfl, (hdrained rfl).1, hw, hopen, hfresh⟩

end Network

end BoundedStreams
