import BoundedStreams.Proofs.Simulation

/-! Runs of one manager whose only consumer is an echo service, and what its peers sent and got in
them. -/

namespace BoundedStreams

/-- A manager with its network, and the echo service once that is attached. -/
structure Daemon (κ : Type) where
  site : Site κ
  echo : Option Echo

namespace Daemon

variable {κ : Type}

inductive Act (κ : Type) where
  | network (action : Network.Action)
  | call (call : Call Handle κ)
  | attach
  | turn

abbrev History (κ : Type) := List (Act κ × Network.Reply)

/-- Bytes enter and leave the network by the peers only, and no other consumer is there than the
service. -/
def Act.fair : Act κ → Bool
  | .network (.send ..) | .network (.recv ..) => false
  | .call .closeListener | .call .port | .call (.closeOutput _) | .call (.state _) | .call .stats => true
  | .call _ => false
  | .network _ | .attach | .turn => true

def Act.isNetwork : Act κ → Bool
  | .network _ => true
  | .call _ | .attach | .turn => false

def Act.isTurn : Act κ → Bool
  | .turn => true
  | .network _ | .call _ | .attach => false

def created (o : Options) (ports : PortSource) : Daemon κ where
  site :=
    { network := .initial
      manager := (Manager.create o ports).1
      journal := Journal.blank.note (Manager.create o ports : Manager κ × PortSource).1.creationNote }
  echo := none

/-- Attaches a service, unless one is attached. -/
def attach (self : κ) (d : Daemon κ) : Daemon κ :=
  match d.echo with
  | some _ => d
  | none =>
    match Echo.attach self d.site with
    | (.ok e, s) => ⟨s, some e⟩
    | (.error _, s) => ⟨s, none⟩

/-- No consumer at all. -/
def nobody : Consumer κ Unit := fun _ w => w

/-- A turn, in which the service answers if it is attached. -/
def turn (self : κ) (d : Daemon κ) : Daemon κ :=
  match d.echo with
  | some e => let (s, e) := Site.turn (Echo.consumer self) (d.site, e); ⟨s, some e⟩
  | none => ⟨(Site.turn nobody (d.site, ())).1, none⟩

def perform (self : κ) (d : Daemon κ) : Act κ → Network.Reply × Daemon κ
  | .network a =>
    let (r, n) := d.site.network.perform a
    (r, { d with site := { d.site with network := n } })
  | .call c => (.done, { d with site := (c.perform d.site).2 })
  | .attach => (.done, d.attach self)
  | .turn => (.done, d.turn self)

def run (self : κ) (d : Daemon κ) : List (Act κ) → History κ × Daemon κ
  | [] => ([], d)
  | a :: as =>
    let (r, d) := d.perform self a
    let (past, d) := d.run self as
    ((a, r) :: past, d)

/-- All that a peer sent over its connection, and all of it that it took back. -/
structure Talk where
  sent : Bytes
  taken : Bytes

def Talk.hear (c : SocketId) (t : Talk) : Act κ × Network.Reply → Talk
  | (.network (.connect _), .socket (some d)) => if d = c then ⟨[], []⟩ else t
  | (.network (.peerSend d bs), _) => if d = c then { t with sent := t.sent ++ bs } else t
  | (.network (.peerTake d), .bytes bs) => if d = c then { t with taken := t.taken ++ bs } else t
  | _ => t

/-- What passed over the connection `c` since it came to be. -/
def talk (past : History κ) (c : SocketId) : Talk := past.foldl (Talk.hear c) ⟨[], []⟩

lemma talk_concat (past : History κ) (x : Act κ × Network.Reply) (c : SocketId) :
    talk (past ++ [x]) c = (talk past c).hear c x := by
  rw [talk, List.foldl_append]
  rfl

lemma run_invariant {self : κ} {P : History κ → Daemon κ → Prop} {Q : Act κ → Prop}
    (hstep : ∀ past d a, P past d → Q a → P (past ++ [(a, (d.perform self a).1)]) (d.perform self a).2)
    {past : History κ} {d : Daemon κ} (hP : P past d) (as : List (Act κ)) (hQ : ∀ a ∈ as, Q a) :
    P (past ++ (d.run self as).1) (d.run self as).2 := by
  induction as generalizing past d with
  | nil =>
    rw [run, List.append_nil]
    exact hP
  | cons a as ih =>
    have hone := hstep past d a hP (hQ a List.mem_cons_self)
    have hrest := ih hone fun b hb => hQ b (List.mem_cons_of_mem _ hb)
    rw [List.append_assoc, List.singleton_append] at hrest
    exact hrest

/-! ### The books of a daemon -/

/-- The moment of a lone manager with `fs` as the turns in progress. -/
def alone (s : Site κ) (ports : PortSource) (fs : List (Frame κ)) : Moment κ :=
  ⟨s.network, [some s.manager], s.journal, ports, fs⟩

def moment (d : Daemon κ) (ports : PortSource) : Moment κ := alone d.site ports []

lemma site?_moment (d : Daemon κ) (ports : PortSource) : (d.moment ports).site? 0 = some d.site := rfl

lemma orderly_created (o : Options) (ports : PortSource) :
    ((created o ports : Daemon κ).moment (Manager.create o ports : Manager κ × PortSource).2).Orderly :=
  (Moment.orderly_initial ports).create o

lemma orderly_of_reaches {w w' : Moment κ} (hw : w.Orderly) (h : w.Reaches w') : w'.Orderly := by
  obtain ⟨mvs, es, hr⟩ := h
  exact Moment.run_invariant (P := fun _ w => w.Orderly)
    (fun _ _ _ _ _ hw hs => ((Moment.step_cases hs).stage hw).orderly hw) hw hr

/-- What a daemon does is a run of its manager. -/
lemma reaches_perform (self : κ) (d : Daemon κ) (ports : PortSource) (a : Act κ) :
    (d.moment ports).Reaches ((d.perform self a).2.moment ports) := by
  have hsite := d.site?_moment ports
  cases a with
  | network a => exact .step _ _ (Moment.step_network rfl a)
  | call c => exact .step _ _ (Moment.step_call rfl hsite c)
  | attach =>
    have hattach := Echo.reaches_attach rfl hsite self
    simp only [perform, attach]
    split
    · exact .refl _
    · split <;> next heq => rwa [heq] at hattach
  | turn =>
    simp only [perform, turn]
    split
    · next e _ => exact Moment.reaches_turn (Echo.plain_consumer self) hsite rfl rfl e
    · have hplain : Site.Plain (nobody : Consumer κ Unit) := fun _ _ => .refl
      exact Moment.reaches_turn hplain hsite rfl rfl ()

lemma orderly_perform (self : κ) {d : Daemon κ} {ports : PortSource} (hd : (d.moment ports).Orderly)
    (a : Act κ) : ((d.perform self a).2.moment ports).Orderly :=
  orderly_of_reaches hd (d.reaches_perform self ports a)

lemma reaches_run (self : κ) (o : Options) (ports : PortSource) (acts : List (Act κ)) :
    ∃ ports', (Moment.initial ports).Reaches (((created o ports).run self acts).2.moment ports') := by
  refine ⟨(Manager.create o ports : Manager κ × PortSource).2, ?_⟩
  have hcreated : (Moment.initial ports).Reaches ((created o ports : Daemon κ).moment
      (Manager.create o ports : Manager κ × PortSource).2) := .step (.create o) .done rfl
  have hall : ∀ (acts : List (Act κ)) (d : Daemon κ) (ports : PortSource),
      (d.moment ports).Reaches ((d.run self acts).2.moment ports) := by
    intro acts
    induction acts with
    | nil => exact fun d ports => .refl _
    | cons a acts ih => exact fun d ports => (d.reaches_perform self ports a).trans (ih _ ports)
  exact hcreated.trans (hall acts _ _)

end Daemon

end BoundedStreams
