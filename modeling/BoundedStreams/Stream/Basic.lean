import BoundedStreams.Socket
import BoundedStreams.Stream.Readiness

/-!
The record of a claimed stream. It is active while it has a socket and orphaned afterwards. `κ` is
the type of names by which the consumer's callbacks are known.
-/

namespace BoundedStreams

structure Stream (κ : Type) where
  socket : Option SocketId
  readiness : Readiness
  callback : Option κ
  lastActivity : Nat
  /-- The turn of the last notification. -/
  notifiedTurn : Option Nat

inductive StreamState where
  | active
  | orphaned
  deriving DecidableEq

inductive StreamError where
  | busy
  | invalidHandle
  | closed
  deriving DecidableEq

def StreamError.message : StreamError → String
  | busy => "stream busy; wait for the matching interest notification"
  | invalidHandle => "stale or unknown stream handle"
  | closed => "stream socket is closed"

namespace Stream

variable {κ : Type}

def claimed (s : SocketId) (now : Nat) : Stream κ where
  socket := some s
  readiness := .unarmed
  callback := none
  lastActivity := now
  notifiedTurn := none

def state (r : Stream κ) : StreamState := if r.socket.isSome then .active else .orphaned

def interests (r : Stream κ) : Interests := r.readiness.interests

def arm (r : Stream κ) (want : Interests) (callback : Option κ) : Stream κ :=
  { r with readiness := .armed want, callback := callback }

end Stream

end BoundedStreams
