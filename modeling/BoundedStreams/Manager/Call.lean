import BoundedStreams.Manager.Turn

/-!
The calls that a consumer can make at a site, inside a callback or outside, and their answers, as
data. `ρ` is what refers to a stream and `κ` what names a callback.
-/

namespace BoundedStreams

inductive Call (ρ κ : Type) where
  | openListener (callback : κ)
  | closeListener
  | port
  | accept
  | close (stream : ρ)
  | closeOutput (stream : ρ)
  | arm (stream : ρ) (want : Interests) (callback : Option κ)
  | read (stream : ρ) (count : Nat)
  | write (stream : ρ) (bytes : Bytes)
  | state (stream : ρ)
  | stats

namespace Call

inductive Reply where
  | done
  | opened (result : Except ListenerError Port)
  | port (port : Port) (isOpen : Bool)
  | claimed (stream : Option Handle)
  | armed (result : Except StreamError Unit)
  | read (result : Except StreamError Bytes)
  | written (result : Except StreamError Nat)
  | state (state : Option (StreamState × Interests))
  | stats (stats : Stats)

variable {ρ κ κ' : Type}

/-- Finds the stream that a call refers to; without one there is no call. -/
def resolve (find : ρ → Option Handle) (name : κ → κ') : Call ρ κ → Option (Call Handle κ')
  | .openListener callback => some (.openListener (name callback))
  | .closeListener => some .closeListener
  | .port => some .port
  | .accept => some .accept
  | .close r => (find r).map .close
  | .closeOutput r => (find r).map .closeOutput
  | .arm r want callback => (find r).map (.arm · want (callback.map name))
  | .read r k => (find r).map (.read · k)
  | .write r bytes => (find r).map (.write · bytes)
  | .state r => (find r).map .state
  | .stats => some .stats

def perform (s : Site κ) : Call Handle κ → Reply × Site κ
  | .openListener callback =>
    let (r, s) := s.openListener callback
    (.opened (r.map fun _ => s.manager.port), s)
  | .closeListener => (.done, s.closeListener)
  | .port => (.port s.manager.port s.manager.listener.isSome, s)
  | .accept => let (h, s) := s.accept; (.claimed h, s)
  | .close h => (.done, s.close h)
  | .closeOutput h => (.done, s.closeOutput h)
  | .arm h want callback => let (r, s) := s.arm h want callback; (.armed r, s)
  | .read h k => let (r, s) := s.read h k; (.read r, s)
  | .write h bytes => let (r, s) := s.write h bytes; (.written r, s)
  | .state h => (.state (s.manager.streamState? h), s)
  | .stats => (.stats s.manager.stats, s)

end Call

end BoundedStreams
