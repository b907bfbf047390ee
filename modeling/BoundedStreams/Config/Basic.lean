import BoundedStreams.Socket

/-!
Settings by section, with their defaults.
-/

namespace BoundedStreams

namespace Config

structure Listener where
  /-- 0 takes the next port of the source that starts at `ephemeralBase`. -/
  port : Port
  ephemeralBase : Port
  bindAddress : String
  maxStreams : UInt64
  maxPending : UInt64

structure Admission where
  minAcceptIntervalMs : UInt64
  closeQuietPeriodMs : UInt64

structure Eviction where
  minIdleMs : UInt64

structure Io where
  maxOutboundBytes : UInt64
  maxInboundBytes : UInt64
  activePushDelayMs : UInt64
  tickIntervalMs : UInt64

structure Observability where
  logLevel : String
  metricsEnabled : Bool
  metricsAddress : String

def Listener.standard : Listener where
  port := 0
  ephemeralBase := 9000
  bindAddress := "0.0.0.0"
  maxStreams := 8
  maxPending := 4

def Admission.standard : Admission := ⟨100, 500⟩

def Eviction.standard : Eviction := ⟨10000⟩

def Io.standard : Io := ⟨1024, 4096, 10, 10⟩

def Observability.standard : Observability := ⟨"info", false, "127.0.0.1:9090"⟩

end Config

structure Config where
  listener : Config.Listener
  admission : Config.Admission
  eviction : Config.Eviction
  io : Config.Io
  observability : Config.Observability

def Config.standard : Config := ⟨.standard, .standard, .standard, .standard, .standard⟩

end BoundedStreams
