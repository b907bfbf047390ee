import BoundedStreams.Config.Validation
import BoundedStreams.Echo

/-!
From a configuration to an echo service that listens.
-/

namespace BoundedStreams

inductive StartError where
  | bindAddress
  | listener (cause : ListenerError)

def StartError.message : StartError → String
  | bindAddress => "invalid bind address: invalid IP address syntax"
  | listener cause => cause.message

/-- The site of a new manager, whose port may come from the configured source. -/
def siteFor {κ : Type} (c : Config) (n : Network) : Site κ :=
  let (m, _) := Manager.create (Options.ofConfig c) (.startingAt c.listener.ephemeralBase)
  { network := n, manager := m, journal := Journal.blank.note m.creationNote }

/-- The listener opens last, once everything behind it exists. -/
def start (c : Config) (n : Network) : Except StartError (Site Unit × Echo) :=
  match IpAddress.parse? c.listener.bindAddress with
  | none => .error .bindAddress
  | some _ =>
    match Echo.attach () (siteFor c n) with
    | (.ok echo, s) => .ok (s, echo)
    | (.error cause, _) => .error (.listener cause)

end BoundedStreams
