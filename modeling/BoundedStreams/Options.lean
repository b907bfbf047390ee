import BoundedStreams.Config.Basic
import BoundedStreams.Duration

/-!
What a manager is built from.
-/

namespace BoundedStreams

structure Options where
  /-- Without a port the next one of a port source is taken. -/
  port : Option Port
  capacity : Nat
  maxPending : Nat
  minAcceptInterval : Nat
  closeQuietPeriod : Nat
  minIdle : Nat
  maxOutboundBytes : Nat
  activePushDelay : Nat

namespace Options

def ofConfig (c : Config) : Options where
  port := if c.listener.port = 0 then none else some c.listener.port
  capacity := c.listener.maxStreams.toNat
  maxPending := c.listener.maxPending.toNat
  minAcceptInterval := Duration.ofMillis c.admission.minAcceptIntervalMs.toNat
  closeQuietPeriod := Duration.ofMillis c.admission.closeQuietPeriodMs.toNat
  minIdle := Duration.ofMillis c.eviction.minIdleMs.toNat
  maxOutboundBytes := c.io.maxOutboundBytes.toNat
  activePushDelay := Duration.ofMillis c.io.activePushDelayMs.toNat

def standard : Options := ofConfig .standard

def withCapacity (n : Nat) : Options := { standard with capacity := n }

end Options

end BoundedStreams
