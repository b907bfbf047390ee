/-!
Identities on the network: sockets, ports and the bytes that travel between them.
-/

namespace BoundedStreams

abbrev Bytes := List UInt8

abbrev Port := UInt16

/-- Names a listener or a connection. -/
structure SocketId where
  num : Nat
  deriving DecidableEq

namespace SocketId

def text (s : SocketId) : String := "sock-" ++ toString s.num

end SocketId

end BoundedStreams
