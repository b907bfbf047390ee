/-!
Handles to claimed streams. A handle names a slot and one occupancy of it.
-/

namespace BoundedStreams

structure Handle where
  index : Nat
  generation : UInt32
  deriving DecidableEq

def Handle.text (h : Handle) : String :=
  "stream-" ++ toString h.index ++ "." ++ toString h.generation.toNat

end BoundedStreams
