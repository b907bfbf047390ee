import BoundedStreams.Proofs.Account
import BoundedStreams.Proofs.Delivery
import BoundedStreams.Startup

/-! Every configuration that passes validation gives a working echo service. The first turn after a peer
has connected opens its session; from then on the session finishes as any other does. -/

namespace BoundedStreams

/-! ### What validation is good for -/

/-- With these options a manager can admit a peer, hold bytes for it and see to its timer. -/
structure Options.Usable (o : Options) : Prop where
  capacity : o.capacity ≠ 0
  maxPending : o.maxPending ≠ 0
  maxOutboundBytes : 0 < o.maxOutboundBytes
  activePushDelay : o.activePushDelay ≤ Duration.greatest

namespace Config

variable {c : Config}

lemma violations_of_validate {c' : Config} (hc : c.validate = .ok c') : c.violations = [] := by
  rw [validate] at hc
  split at hc
  · next hnone => exact List.isEmpty_iff.mp hnone
  · cases hc

lemma eq_true_of_ifFails {ok : Bool} {v : Violation} (h : ifFails ok v = []) : ok = true := by
  cases ok with
  | true => rfl
  | false => cases h

lemma positive_of_violations (hc : c.violations = []) {field : String} {n : UInt64}
    (hn : (field, n) ∈ c.positives) : 0 < n.toNat := by
  simp only [violations, List.append_eq_nil_iff, List.flatMap_eq_nil_iff] at hc
  have hne := of_decide_eq_true (eq_true_of_ifFails (hc.1.1.1 _ hn))
  exact Nat.pos_of_ne_zero fun h => hne (UInt64.toNat_inj.mp h)

lemma bindAddress_of_violations (hc : c.violations = []) :
    ∃ a, IpAddress.parse? c.listener.bindAddress = some a := by
  simp only [violations, List.append_eq_nil_iff] at hc
  exact Option.isSome_iff_exists.mp (eq_true_of_ifFails hc.1.1.2)

lemma usable_of_violations (hc : c.violations = []) : (Options.ofConfig c).Usable where
  capacity := by
    have hn : ("listener.max_concurrent_streams", c.listener.maxStreams) ∈ c.positives := by
      simp [positives]
    exact (positive_of_violations hc hn).ne'
  maxPending := by
    have hn : ("listener.max_pending", c.listener.maxPending) ∈ c.positives := by simp [positives]
    exact (positive_of_violations hc hn).ne'
  maxOutboundBytes := by
    have hn : ("io.max_outbound_bytes", c.io.maxOutboundBytes) ∈ c.positives := by simp [positives]
    exact positive_of_violations hc hn
  activePushDelay := by
    have hms := c.io.activePushDelayMs.toNat_lt
    show c.io.activePushDelayMs.toNat * 1000000 ≤ 18446744073709551615999999999
    omega

end Config

/-! ### The service listens -/

namespace Network

/-- One listener, on the port `p`, and no connection. -/
def listening (p n : Port) : Network :=
  { initial with nextId := 2, nextPort := n, listeners := Table.empty.set ⟨1⟩ p }

/-- One peer, connected to the one listener, whose `bytes` are unread. -/
def dialled (p n : Port) (bytes : Bytes) (queue : List SocketEvent) : Network :=
  { listening p n with
    nextId := 3
    connections := Table.empty.set ⟨2⟩ { Connection.opened with inbound := bytes }
    queue := queue }

lemma bind_initial (p : Port) : ∃ q n, initial.bind p = (.ok (⟨1⟩, q), listening q n) := by
  rw [bind, assignPort]
  by_cases hp : p = 0
  · exact ⟨40000, 40001, by rw [if_pos hp]; rfl⟩
  · exact ⟨p, 40000, by rw [if_neg hp]; rfl⟩

lemma connect_listening (p n : Port) : (listening p n).perform (.connect p) =
    (.socket (some ⟨2⟩), dialled p n [] [⟨⟨2⟩, .accepted ⟨1⟩⟩]) := by
  have hentries : (listening p n).listeners.entries = [(⟨1⟩, p)] := rfl
  have hlistener : (listening p n).listenerOn? p = some ⟨1⟩ := by
    simp [listenerOn?, hentries]
  rw [perform, connect, hlistener]
  rfl

lemma peerSend_dialled (p n : Port) (bytes : Bytes) (queue : List SocketEvent) :
    (dialled p n [] queue).perform (.peerSend ⟨2⟩ bytes) =
      (.done, dialled p n bytes (queue ++ [⟨⟨2⟩, .received⟩])) := rfl

end Network

namespace Daemon

open Echo Network

variable {κ : Type} (me : κ) (o : Options) (ports : PortSource) (p n : Port)

def hosting : Manager κ :=
  { (Manager.create o ports).1 with port := p, listener := some ⟨⟨1⟩, me⟩ }

lemma attach_created : ∃ p n j, Echo.attach me (created o ports).site =
    (.ok .fresh, ⟨listening p n, hosting me o ports p, j⟩) := by
  obtain ⟨p, n, hbind⟩ := bind_initial (Manager.create o ports : Manager κ × PortSource).1.port
  have hclosed : (Manager.create o ports : Manager κ × PortSource).1.listener = none := rfl
  refine ⟨p, n, ?_⟩
  simp only [Echo.attach, Site.openListener, created, hclosed, hbind, Option.isSome_none,
    Bool.false_eq_true, if_false]
  exact ⟨_, rfl⟩

/-! ### The first turn -/

def admitting : Manager κ :=
  { hosting me o ports p with backlog := [⟨⟨2⟩, 0, false⟩], totals := ⟨1, 0, 0, 0⟩, turns := 1 }

def offering : Manager κ :=
  { admitting me o ports p with
    backlog := [⟨⟨2⟩, 0, true⟩]
    stagger := (Stagger.unused o.minAcceptInterval o.closeQuietPeriod).offered 0
    depth := 1 }

/-- The peer was claimed, as the first stream of the manager, in the state `r`. -/
def claiming (r : Stream κ) : Manager κ :=
  { offering me o ports p with
    backlog := []
    active := 1
    sockets := Table.empty.set ⟨2⟩ ⟨0, 1⟩
    streams := ⟨[⟨1, some r⟩], []⟩ }

def awaited : Stream κ := (Stream.claimed ⟨2⟩ 0).arm .read (some me)

variable {o} (bytes : Bytes)

lemma onAccepted_first (ho : o.Usable) (j : Journal) : ∃ j',
    (⟨dialled p n bytes [], { hosting me o ports p with turns := 1 }, j⟩ : Site κ).onAccepted ⟨2⟩ ⟨1⟩ =
      ⟨dialled p n bytes [], admitting me o ports p, j'⟩ := by
  obtain ⟨port, capacity, maxPending, interval, quiet, idle, room, delay⟩ := o
  cases capacity with
  | zero => exact absurd rfl ho.capacity
  | succ capacity =>
    cases maxPending with
    | zero => exact absurd rfl ho.maxPending
    | succ maxPending => exact ⟨_, rfl⟩

lemma accept_first (ho : o.Usable) (j : Journal) : ∃ j',
    (⟨dialled p n bytes [], offering me o ports p, j⟩ : Site κ).accept =
      (some ⟨0, 1⟩, ⟨dialled p n bytes [], claiming me o ports p (.claimed ⟨2⟩ 0), j'⟩) := by
  obtain ⟨port, capacity, maxPending, interval, quiet, idle, room, delay⟩ := o
  cases capacity with
  | zero => exact absurd rfl ho.capacity
  | succ capacity => exact ⟨_, rfl⟩

lemma onOffer_first (ho : o.Usable) (j : Journal) : ∃ j',
    onOffer me (⟨dialled p n bytes [], offering me o ports p, j⟩, fresh) =
      (⟨dialled p n bytes [], claiming me o ports p (awaited me), j'⟩, fresh.openSession ⟨0, 1⟩) := by
  obtain ⟨j', haccept⟩ := accept_first me ports p n bytes ho j
  simp only [onOffer, haccept]
  exact ⟨_, rfl⟩

/-- The manager between turns, with the session of the peer as its first stream. -/
def serving (o : Options) : Manager κ := { claiming me o ports p (awaited me) with depth := 0 }

def served (o : Options) (j : Journal) : Daemon κ :=
  ⟨⟨dialled p n bytes [], serving me ports p o, j⟩, some (fresh.openSession ⟨0, 1⟩)⟩

lemma turn_first (ho : o.Usable) (j : Journal) : ∃ j',
    (⟨⟨dialled p n bytes [⟨⟨2⟩, .accepted ⟨1⟩⟩, ⟨⟨2⟩, .received⟩], hosting me o ports p, j⟩,
      some fresh⟩ : Daemon κ).turn me = served me ports p n bytes o j' := by
  obtain ⟨j₁, hadmit⟩ := onAccepted_first me ports p n bytes ho j
  have hoffer : ∃ j₂, (⟨dialled p n bytes [], admitting me o ports p, j₁⟩ : Site κ).offerPending =
      (⟨dialled p n bytes [], { offering me o ports p with depth := 0 }, j₂⟩, some (.offer me)) := ⟨_, rfl⟩
  obtain ⟨j₂, hoffer⟩ := hoffer
  obtain ⟨j₃, hanswer⟩ := onOffer_first me ports p n bytes ho j₂
  refine ⟨j₃, ?_⟩
  have hbegin : (⟨dialled p n bytes [⟨⟨2⟩, .accepted ⟨1⟩⟩, ⟨⟨2⟩, .received⟩], hosting me o ports p, j⟩ :
      Site κ).begin = ([⟨⟨2⟩, .accepted ⟨1⟩⟩, ⟨⟨2⟩, .received⟩, ⟨⟨2⟩, .poll⟩],
        ⟨dialled p n bytes [], { hosting me o ports p with turns := 1 }, j⟩) := rfl
  have haccepted : Site.serve (consumer me) (·.handle ⟨⟨2⟩, .accepted ⟨1⟩⟩)
      (⟨dialled p n bytes [], { hosting me o ports p with turns := 1 }, j⟩, fresh) =
      (⟨dialled p n bytes [], admitting me o ports p, j₁⟩, fresh) := by
    simp only [Site.serve, Site.handle, hadmit]
  -- No stream has the socket yet: that bytes came in is looked at only once the peer was claimed.
  have hignored : ∀ kind, kind = .received ∨ kind = .poll →
      Site.serve (consumer me) (·.handle ⟨⟨2⟩, kind⟩)
        (⟨dialled p n bytes [], admitting me o ports p, j₁⟩, fresh) =
        (⟨dialled p n bytes [], admitting me o ports p, j₁⟩, fresh) := by
    rintro kind (rfl | rfl) <;> rfl
  have hends : (⟨dialled p n bytes [], admitting me o ports p, j₁⟩ : Site κ).takeEnding =
      ([], ⟨dialled p n bytes [], admitting me o ports p, j₁⟩) := rfl
  have hoffered : Site.serve (consumer me) Site.offerPending
      (⟨dialled p n bytes [], admitting me o ports p, j₁⟩, fresh) =
      (⟨dialled p n bytes [], serving me ports p o, j₃⟩, fresh.openSession ⟨0, 1⟩) := by
    have henter : (⟨dialled p n bytes [], { offering me o ports p with depth := 0 }, j₂⟩ : Site κ).enter =
        ⟨dialled p n bytes [], offering me o ports p, j₂⟩ := rfl
    simp only [Site.serve, hoffer, consumer, henter, hanswer]
    rfl
  simp only [turn, Site.turn, hbegin, List.foldl, haccepted, hignored .received (.inl rfl),
    hignored .poll (.inr rfl), hends, hoffered]
  rfl

/-! ### The turns after it -/

variable {me}

/-- What is not done on the network passes nothing between the peers and the service. -/
lemma talk_run_of_local (d : Daemon κ) {acts : List (Act κ)} (hacts : ∀ a ∈ acts, a.isNetwork = false)
    (past : History κ) (c : SocketId) : talk (past ++ (d.run me acts).1) c = talk past c := by
  induction acts generalizing d past with
  | nil => rw [run, List.append_nil]
  | cons a acts ih =>
    have hone : talk (past ++ [(a, (d.perform me a).1)]) c = talk past c := by
      rw [talk_concat]
      cases a with
      | network a => cases hacts _ List.mem_cons_self
      | call _ | attach | turn => rfl
    have hrest := ih (d.perform me a).2 (fun b hb => hacts b (List.mem_cons_of_mem _ hb))
      (past ++ [(a, (d.perform me a).1)])
    rw [List.append_assoc, List.singleton_append] at hrest
    exact hrest.trans hone

lemma received_of_local (d : Daemon κ) {acts : List (Act κ)}
    (hacts : ∀ a ∈ acts, a.isNetwork = false) : d.received me acts = 0 := by
  induction acts generalizing d with
  | nil => rfl
  | cons a acts ih =>
    rw [received, ih _ fun b hb => hacts b (List.mem_cons_of_mem _ hb)]
    cases a with
    | network a => cases hacts _ List.mem_cons_self
    | call _ | attach | turn => rfl

def opening : History κ :=
  [(.attach, .done), (.network (.connect p), .socket (some ⟨2⟩)),
    (.network (.peerSend ⟨2⟩ bytes), .done), (.turn, .done)]

lemma account_served (j : Journal) : (served me ports p n bytes o j).account = bytes.length := by
  have hkeys : (dialled p n bytes []).connections.keys = [⟨2⟩] := rfl
  have hunread : (dialled p n bytes []).unread = bytes.length := by
    rw [unread, hkeys]
    rfl
  rw [account, Echo.account, served, hunread]
  exact Nat.zero_add _

lemma nearing_served (ho : o.Usable) (j : Journal) :
    Nearing ⟨0, 1⟩ ⟨2⟩ bytes.length (bytes.length + 1) (served me ports p n bytes o j) where
  session := by
    have hrest : rest [] { Connection.opened with inbound := bytes } = bytes.length := Nat.zero_add _
    refine ⟨_, awaited me, [], { Connection.opened with inbound := bytes }, rfl,
      ⟨rfl, rfl, rfl, rfl, rfl⟩, ?_, .inl ?_⟩ <;> rw [hrest]
    · exact Nat.le_add_left _ _
    · exact Nat.lt_succ_self _
  calm := rfl
  room := ho.maxOutboundBytes

section Hosted

variable {j j' : Journal}
  (hattach : Echo.attach me (created o ports).site =
    (.ok .fresh, ⟨listening p n, hosting me o ports p, j⟩))
  (hturn : (⟨⟨dialled p n bytes [⟨⟨2⟩, .accepted ⟨1⟩⟩, ⟨⟨2⟩, .received⟩], hosting me o ports p, j⟩,
    some fresh⟩ : Daemon κ).turn me = served me ports p n bytes o j')

include hattach hturn in
lemma reached_served : Reached me (opening p bytes) (served me ports p n bytes o j') := by
  have hopen : (created o ports : Daemon κ).attach me =
      ⟨⟨listening p n, hosting me o ports p, j⟩, some fresh⟩ := by
    simp only [attach, created] at hattach ⊢
    rw [hattach]
  have hfair : ∀ a ∈ [Act.attach (κ := κ), .network (.connect p), .network (.peerSend ⟨2⟩ bytes), .turn],
      a.fair = true := by simp [Act.fair]
  have hrun := reached_run me o ports hfair
  simp only [run, perform, hopen, connect_listening, peerSend_dialled, List.singleton_append,
    hturn] at hrun
  exact hrun

include hturn in
lemma run_hosting (k : Nat) : (⟨⟨listening p n, hosting me o ports p, j⟩, some fresh⟩ : Daemon κ).run me
      (.network (.connect p) :: .network (.peerSend ⟨2⟩ bytes) :: List.replicate (k + 1) .turn) =
    ((opening p bytes).tail ++ ((served me ports p n bytes o j').run me (List.replicate k .turn)).1,
      ((served me ports p n bytes o j').run me (List.replicate k .turn)).2) := by
  simp only [List.replicate_succ, run, perform, connect_listening, peerSend_dialled,
    List.singleton_append, hturn]
  rfl

end Hosted

/-- The first turn of a service whose listener is open starts the session of the peer, and the turns
after it give back what the peer sent. -/
lemma hosted_service_echoes (ho : o.Usable) {j : Journal}
    (hattach : Echo.attach me (created o ports).site =
      (.ok .fresh, ⟨listening p n, hosting me o ports p, j⟩)) :
    ∃ past d e, (⟨⟨listening p n, hosting me o ports p, j⟩, some fresh⟩ : Daemon κ).run me
        (.network (.connect p) :: .network (.peerSend ⟨2⟩ bytes) ::
          List.replicate (bytes.length + 2) .turn) =
        ((.network (.connect p), .socket (some ⟨2⟩)) :: past, d) ∧
      d.echo = some e ∧ (d.site.network.peerTake ⟨2⟩).1 = bytes ∧
      e.stats.bytesEchoed = bytes.length ∧ d.site.manager.verdicts = (1, 0) ∧
      d.site.network.overrun = false := by
  obtain ⟨j', hturn⟩ := turn_first me ports p n bytes ho j
  let first : Daemon κ := served me ports p n bytes o j'
  let turns : List (Act κ) := List.replicate (bytes.length + 1) .turn
  have hturns : ∀ a ∈ turns, a.fair = true ∧ a.isNetwork = false := fun a ha => by
    rw [List.eq_of_mem_replicate ha, Act.fair, Act.isNetwork]
    exact ⟨rfl, rfl⟩
  have hcount : turns.countP Act.isTurn = bytes.length + 1 := by
    rw [List.countP_replicate, Act.isTurn, if_pos rfl]
  have hnear : Nearing ⟨0, 1⟩ ⟨2⟩ bytes.length (turns.countP Act.isTurn) first :=
    hcount ▸ nearing_served ports p n bytes ho j'
  obtain ⟨hreached, hnear', htimely⟩ :=
    (reached_served ports p n bytes hattach hturn).nearing_run hturns hnear
  obtain ⟨e, q, he, -, hq, -, -, hgot, hleast⟩ := hreached.finished hnear'
  rw [first.talk_run_of_local fun a ha => (hturns a ha).2] at hgot
  have hmost := first.account_run me fun a ha => (hturns a ha).1
  rw [first.received_of_local fun a ha => (hturns a ha).2, account_served, account, he,
    Option.getD_some, Echo.account] at hmost
  have hechoed : e.stats.bytesEchoed = bytes.length := by
    dsimp only at hmost
    omega
  refine ⟨_, _, e, run_hosting ports p n bytes hturn (bytes.length + 1), he, ?_, hechoed,
    htimely.verdicts, htimely.overrun ?_⟩
  · rw [peerTake, hq]
    exact hgot
  · exact (Nat.zero_add _).le.trans ho.activePushDelay

end Daemon

/-- Every configuration that passes validation gives a working echo service: on a new network it starts,
and in two more turns than a first peer has sent bytes that peer has got them back, each counted as echoed
once; the peer was admitted, nobody was turned away, and no deadline was out of range. -/
theorem configured_service_echoes {c c' : Config} (hc : c.validate = .ok c') (payload : Bytes) :
    ∃ s e, start c .initial = .ok (s, e) ∧ ∃ socket past d e',
      Daemon.run () ⟨s, some e⟩ (.network (.connect s.manager.port) ::
          .network (.peerSend socket payload) :: List.replicate (payload.length + 2) .turn) =
        ((.network (.connect s.manager.port), .socket (some socket)) :: past, d) ∧
      d.echo = some e' ∧ (d.site.network.peerTake socket).1 = payload ∧
      e'.stats.bytesEchoed = payload.length ∧ d.site.manager.stats.totals.accepted = 1 ∧
      d.site.manager.stats.totals.rejected = 0 ∧ d.site.network.overrun = false := by
  have hnone := Config.violations_of_validate hc
  obtain ⟨address, haddress⟩ := Config.bindAddress_of_violations hnone
  obtain ⟨p, n, j, hattach⟩ := Daemon.attach_created () (Options.ofConfig c)
    (.startingAt c.listener.ephemeralBase)
  have hsite : siteFor c .initial = (Daemon.created (κ := Unit) (Options.ofConfig c)
    (.startingAt c.listener.ephemeralBase)).site := rfl
  obtain ⟨past, d, e, hrun, he, hgot, hechoed, hverdicts, hover⟩ :=
    Daemon.hosted_service_echoes _ _ _ payload (Config.usable_of_violations hnone) hattach
  obtain ⟨haccepted, hrejected⟩ := Prod.mk.inj hverdicts
  refine ⟨_, _, ?_, ⟨2⟩, past, d, e, hrun, he, hgot, hechoed, haccepted, hrejected, hover⟩
  rw [start, haddress, hsite]
  simp only [hattach]

/-- One stream at a time, one byte on its way to the peer, and a port of the network's own. -/
def Config.least : Config :=
  ⟨⟨0, 0, "127.0.0.1", 1, 1⟩, ⟨0, 0⟩, ⟨0⟩, ⟨1, 1, 0, 1⟩, ⟨"error", false, ""⟩⟩

theorem configured_service_echoes_least : Config.least.validate = .ok Config.least ∧
    ∃ s e, start Config.least .initial = .ok (s, e) ∧ ∃ socket past d e',
      Daemon.run () ⟨s, some e⟩ (.network (.connect s.manager.port) ::
          .network (.peerSend socket [1, 2, 3]) :: List.replicate 5 .turn) =
        ((.network (.connect s.manager.port), .socket (some socket)) :: past, d) ∧
      d.echo = some e' ∧ (d.site.network.peerTake socket).1 = [1, 2, 3] ∧ e'.stats.bytesEchoed = 3 ∧
      d.site.manager.stats.totals.accepted = 1 ∧ d.site.manager.stats.totals.rejected = 0 ∧
      d.site.network.overrun = false :=
  have hvalid : Config.least.validate = .ok Config.least := by rfl
  ⟨hvalid, configured_service_echoes hvalid [1, 2, 3]⟩

end BoundedStreams
