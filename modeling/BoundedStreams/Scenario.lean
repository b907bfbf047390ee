import BoundedStreams.Echo
import BoundedStreams.Manager.Call
import BoundedStreams.Network.Action

/-!
Runs of several managers over one network, told as data: a list of steps from outside, and scripts
that say what each callback does when it is called for the first time, the second time, and so on.
-/

namespace BoundedStreams.Scenario

inductive Callback where
  | script (name : String)
  | echo (service : Nat)
  deriving DecidableEq

/-- A stream by its place among all claims of the run, the last of them, the one notified, or no
stream at all. -/
inductive StreamRef where
  | nth (i : Nat)
  | last
  | self
  | nobody

inductive Action where
  | network (action : Network.Action)
  | call (call : Call StreamRef String)

/-- What each named callback does: the k-th call of it follows the k-th script, and the last one from
then on. -/
abbrev Scripts := Table String (List (List Action))

inductive Deed where
  | act (action : Action)
  | create (options : Options)
  | turn (times : Nat) (pause : Option Nat)
  | attachEcho
  | echoStats
  | dropEcho
  | release
  | metrics

/-- A deed, and the manager it is meant for. -/
structure Step where
  manager : Nat
  deed : Deed

inductive Answer where
  | done
  | network (reply : Network.Reply)
  | call (reply : Call.Reply)
  | noStream
  | noManager
  | created (port : Port)
  | attached (result : Except ListenerError Port)
  | echoStats (stats : Option EchoStats)
  | dropped (wasThere : Bool)
  | metrics (metrics : Metrics)

inductive LogEntry where
  | offer (callback : String) (answers : List Answer)
  | event (callback : String) (stream : Handle) (event : StreamEvent) (answers : List Answer)

/-- An echo consumer with the number that tells it from earlier ones of the same manager. -/
structure Service where
  number : Nat
  echo : Echo

/-- What the run remembers besides the sites. -/
structure Memory where
  claimed : Array Handle
  calls : Table String Nat
  services : Table Nat Service
  nextService : Nat
  log : Array LogEntry

structure World where
  network : Network
  managers : List (Option (Manager Callback))
  journal : Journal
  ports : PortSource
  memory : Memory

namespace Memory

def blank : Memory := ⟨#[], .empty, .empty, 0, #[]⟩

def find? (m : Memory) (self : Option Handle) : StreamRef → Option Handle
  | .nth i => m.claimed[i]?
  | .last => m.claimed.back?
  | .self => self
  | .nobody => none

def keepClaim (m : Memory) : Call.Reply → Memory
  | .claimed (some h) => { m with claimed := m.claimed.push h }
  | _ => m

def service? (m : Memory) (manager number : Nat) : Option Echo :=
  (m.services.get? manager).bind fun v => if v.number = number then some v.echo else none

/-- The script for the next call of a callback, which counts as made. -/
def nextScript (m : Memory) (scripts : Scripts) (name : String) : List Action × Memory :=
  let k := (m.calls.get? name).getD 0
  let all := (scripts.get? name).getD []
  ((all[min k (all.length - 1)]?).getD [], { m with calls := m.calls.set name (k + 1) })

end Memory

abbrev Place := Site Callback × Memory

/-- One action, by the callback of the stream `self` or by nobody's. -/
def act (self : Option Handle) (w : Place) : Action → Answer × Place
  | .network a =>
    let (r, network) := w.1.network.perform a
    (.network r, { w.1 with network := network }, w.2)
  | .call c =>
    match c.resolve (w.2.find? self) Callback.script with
    | none => (.noStream, w)
    | some c =>
      let (r, s) := c.perform w.1
      (.call r, s, w.2.keepClaim r)

def actAll (self : Option Handle) : List Action → Place → List Answer × Place
  | [], w => ([], w)
  | a :: as, w =>
    let (answer, w) := act self w a
    let (answers, w) := actAll self as w
    (answer :: answers, w)

def runScript (scripts : Scripts) (name : String) (self : Option Handle)
    (entry : List Answer → LogEntry) (w : Place) : Place :=
  let (script, m) := w.2.nextScript scripts name
  let (answers, s, m) := actAll self script (w.1, m)
  (s, { m with log := m.log.push (entry answers) })

/-- Lets an echo service answer, unless it was dropped. -/
def runService (manager number : Nat) (n : Notice Callback) (w : Place) : Place :=
  match w.2.service? manager number with
  | none => w
  | some echo =>
    let (s, echo) := Echo.consumer (.echo number) n (w.1, echo)
    (s, { w.2 with services := w.2.services.set manager ⟨number, echo⟩ })

def consumer (scripts : Scripts) (manager : Nat) : Consumer Callback Memory
  | .offer (.script name), w => runScript scripts name none (.offer name) w
  | .event (.script name) h e, w => runScript scripts name (some h) (.event name h e) w
  | .offer (.echo number), w => runService manager number (.offer (.echo number)) w
  | .event (.echo number) h e, w => runService manager number (.event (.echo number) h e) w

/-- Several turns, with the clock moved on between any two of them. -/
def turns (consumer : Consumer Callback Memory) (pause : Option Nat) : Nat → Place → Place
  | 0, w => w
  | 1, w => Site.turn consumer w
  | n + 2, w =>
    let (s, m) := Site.turn consumer w
    turns consumer pause (n + 1)
      ({ s with network := pause.elim s.network s.network.advance }, m)

namespace World

def initial (ports : PortSource) : World := ⟨.initial, [], .blank, ports, .blank⟩

def manager? (w : World) (i : Nat) : Option (Manager Callback) := (w.managers[i]?).join

def place? (w : World) (i : Nat) : Option Place :=
  (w.manager? i).map fun m => (⟨w.network, m, w.journal⟩, w.memory)

def restore (w : World) (i : Nat) (p : Place) : World :=
  { w with
    network := p.1.network
    managers := w.managers.set i (some p.1.manager)
    journal := p.1.journal
    memory := p.2 }

/-- Does something at the site of a manager, if there is that manager. -/
def atSite (w : World) (i : Nat) (f : Place → Answer × Place) : Answer × World :=
  match w.place? i with
  | none => (.noManager, w)
  | some p => let (answer, p) := f p; (answer, w.restore i p)

def create (w : World) (o : Options) : Answer × World :=
  let (m, ports) := Manager.create o w.ports
  (.created m.port, { w with
    managers := w.managers ++ [some m]
    journal := w.journal.note m.creationNote
    ports := ports })

def attachEcho (w : World) (i : Nat) : Answer × World :=
  w.atSite i fun (s, m) =>
    match Echo.attach (.echo m.nextService) s with
    | (.error e, s) => (.attached (.error e), s, m)
    | (.ok echo, s) =>
      (.attached (.ok s.manager.port), s, { m with
        services := m.services.set i ⟨m.nextService, echo⟩
        nextService := m.nextService + 1 })

def dropEcho (w : World) (i : Nat) : Answer × World :=
  (.dropped (w.memory.services.contains i),
    { w with memory := { w.memory with services := w.memory.services.erase i } })

def release (w : World) (i : Nat) : Answer × World :=
  match w.place? i with
  | none => (.noManager, w)
  | some (s, m) =>
    let w := w.restore i (s.release, m)
    (.done, { w with managers := w.managers.set i none })

def perform (scripts : Scripts) (w : World) (i : Nat) : Deed → Answer × World
  | .act (.network a) =>
    let (r, network) := w.network.perform a
    (.network r, { w with network := network })
  | .act (.call c) => w.atSite i fun p => act none p (.call c)
  | .create o => w.create o
  | .turn n pause => w.atSite i fun p => (.done, turns (consumer scripts i) pause n p)
  | .attachEcho => w.attachEcho i
  | .echoStats => (.echoStats ((w.memory.services.get? i).map (·.echo.stats)), w)
  | .dropEcho => w.dropEcho i
  | .release => w.release i
  | .metrics => (.metrics w.journal.metrics, w)

end World

structure Record where
  answer : Answer
  log : List LogEntry
  notes : List Note
  stats : Option Stats

/-- A run ends with its last step, or at a step that asked for an instant out of range. -/
inductive Outcome where
  | finished (records : List Record) (world : World)
  | overrun (records : List Record)

def record (scripts : Scripts) (w : World) (step : Step) : Record × World :=
  let before := w.journal.notes.size
  let w := { w with memory := { w.memory with log := #[] } }
  let (answer, w) := w.perform scripts step.manager step.deed
  ({ answer := answer
     log := w.memory.log.toList
     notes := (w.journal.notes.extract before w.journal.notes.size).toList
     stats := (w.manager? step.manager).map (·.stats) }, w)

def run (scripts : Scripts) (w : World) : List Step → Outcome
  | [] => .finished [] w
  | step :: steps =>
    let (r, w) := record scripts w step
    if w.network.overrun then .overrun []
    else
      match run scripts w steps with
      | .finished rs w => .finished (r :: rs) w
      | .overrun rs => .overrun (r :: rs)

end BoundedStreams.Scenario
