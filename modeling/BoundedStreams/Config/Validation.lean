import BoundedStreams.Address
import BoundedStreams.Config.Basic
import BoundedStreams.Text.Quoted

/-!
What is wrong with a configuration: every violation, in a fixed order.
-/

namespace BoundedStreams

inductive Violation where
  | zero (field : String)
  | bindAddress (text : String)
  | metricsAddress (text : String)
  | logLevel (text : String)
  deriving DecidableEq

def Violation.message : Violation → String
  | zero field => field ++ " must be greater than zero"
  | bindAddress text => "invalid bind address " ++ Text.quoted text
  | metricsAddress text => "invalid metrics address " ++ Text.quoted text
  | logLevel text => "unknown log level " ++ Text.quoted text

namespace Config

def logLevels : List String := ["trace", "debug", "info", "warn", "error"]

/-- The settings that have to be positive. -/
def positives (c : Config) : List (String × UInt64) :=
  [("listener.max_concurrent_streams", c.listener.maxStreams),
    ("listener.max_pending", c.listener.maxPending),
    ("io.max_outbound_bytes", c.io.maxOutboundBytes),
    ("io.max_inbound_bytes", c.io.maxInboundBytes),
    ("io.tick_interval_ms", c.io.tickIntervalMs)]

def ifFails (ok : Bool) (v : Violation) : List Violation := if ok then [] else [v]

def violations (c : Config) : List Violation :=
  (c.positives.flatMap fun p => ifFails (p.2 ≠ 0) (.zero p.1))
    ++ ifFails (IpAddress.parse? c.listener.bindAddress).isSome (.bindAddress c.listener.bindAddress)
    ++ ifFails
      (!c.observability.metricsEnabled
        || (SocketAddress.parse? c.observability.metricsAddress).isSome)
      (.metricsAddress c.observability.metricsAddress)
    ++ ifFails (logLevels.contains c.observability.logLevel) (.logLevel c.observability.logLevel)

/-- The configuration itself, if nothing is wrong with it. -/
def validate (c : Config) : Except (List Violation) Config :=
  if c.violations.isEmpty then .ok c else .error c.violations

end Config

end BoundedStreams
