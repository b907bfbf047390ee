import BoundedStreams.Config.Basic
import BoundedStreams.Toml.Document

/-!
Configurations from TOML. What is missing has its default, and what is not known is ignored. A
section may also be an array, which gives the fields in their order.
-/

namespace BoundedStreams.Config

/-- The fields of a section, by place and name. -/
abbrev Fields := Nat → String → Option Toml.Value

/-- A date has no field of ours. -/
def fieldsOf? : Toml.Value → Option Fields
  | .table _ es => some fun _ name => es.lookup name
  | .array vs => some fun i _ => vs[i]?
  | .tables ts => some fun i _ => ts[i]?.map (.table .header)
  | .dateTime _ => some fun _ _ => none
  | _ => none

def integer? (limit : Nat) : Toml.Value → Option Nat
  | .integer n => if 0 ≤ n && n < limit then some n.toNat else none
  | _ => none

def port? (v : Toml.Value) : Option Port := (integer? UInt16.size v).map .ofNat

def word? (v : Toml.Value) : Option UInt64 := (integer? UInt64.size v).map .ofNat

def text? : Toml.Value → Option String
  | .string s => some s
  | _ => none

def flag? : Toml.Value → Option Bool
  | .boolean b => some b
  | _ => none

/-- Reads a field, if it is given. -/
def Fields.read {α : Type} (f : Fields) (i : Nat) (name : String) (decode : Toml.Value → Option α)
    (standard : α) : Option α :=
  match f i name with
  | some v => decode v
  | none => some standard

def Listener.ofFields? (f : Fields) : Option Listener := do
  let d := Listener.standard
  return {
    port := ← f.read 0 "port" port? d.port
    ephemeralBase := ← f.read 1 "ephemeral_port_base" port? d.ephemeralBase
    bindAddress := ← f.read 2 "bind_address" text? d.bindAddress
    maxStreams := ← f.read 3 "max_concurrent_streams" word? d.maxStreams
    maxPending := ← f.read 4 "max_pending" word? d.maxPending }

def Admission.ofFields? (f : Fields) : Option Admission := do
  let d := Admission.standard
  return {
    minAcceptIntervalMs := ← f.read 0 "min_accept_interval_ms" word? d.minAcceptIntervalMs
    closeQuietPeriodMs := ← f.read 1 "close_quiet_period_ms" word? d.closeQuietPeriodMs }

def Eviction.ofFields? (f : Fields) : Option Eviction := do
  return { minIdleMs := ← f.read 0 "min_idle_ms" word? Eviction.standard.minIdleMs }

def Io.ofFields? (f : Fields) : Option Io := do
  let d := Io.standard
  return {
    maxOutboundBytes := ← f.read 0 "max_outbound_bytes" word? d.maxOutboundBytes
    maxInboundBytes := ← f.read 1 "max_inbound_bytes" word? d.maxInboundBytes
    activePushDelayMs := ← f.read 2 "active_push_delay_ms" word? d.activePushDelayMs
    tickIntervalMs := ← f.read 3 "tick_interval_ms" word? d.tickIntervalMs }

def Observability.ofFields? (f : Fields) : Option Observability := do
  let d := Observability.standard
  return {
    logLevel := ← f.read 0 "log_level" text? d.logLevel
    metricsEnabled := ← f.read 1 "metrics_enabled" flag? d.metricsEnabled
    metricsAddress := ← f.read 2 "metrics_address" text? d.metricsAddress }

def ofEntries? (es : Toml.Entries) : Option Config := do
  let f : Fields := fun _ name => es.lookup name
  let part {α : Type} (i : Nat) (name : String) (decode : Fields → Option α) (standard : α) :=
    f.read i name (fun v => (fieldsOf? v).bind decode) standard
  return {
    listener := ← part 0 "listener" Listener.ofFields? .standard
    admission := ← part 1 "admission" Admission.ofFields? .standard
    eviction := ← part 2 "eviction" Eviction.ofFields? .standard
    io := ← part 3 "io" Io.ofFields? .standard
    observability := ← part 4 "observability" Observability.ofFields? .standard }

def ofToml? (s : String) : Option Config := (Toml.parse? s).bind ofEntries?

end BoundedStreams.Config
