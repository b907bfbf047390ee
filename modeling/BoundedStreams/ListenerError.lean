import BoundedStreams.Network.Basic

/-!
Why a listener could not be opened.
-/

namespace BoundedStreams

inductive ListenerError where
  | bind (port : Port) (cause : PortTaken)
  | alreadyOpen (port : Port)

def ListenerError.message : ListenerError → String
  | bind port cause => "failed to bind port " ++ toString port.toNat ++ ": " ++ cause.message
  | alreadyOpen port => "listener already open on port " ++ toString port.toNat

end BoundedStreams
