import BoundedStreams.Admission

/-!
Counters, and two gauges that hold the last occupancy recorded.
-/

namespace BoundedStreams

structure Metrics where
  accepted : Nat
  refusedForCapacity : Nat
  refusedForBacklog : Nat
  evicted : Nat
  orphaned : Nat
  /-- Active streams and pending connections. -/
  occupancy : Option (Nat × Nat)

namespace Metrics

def untouched : Metrics := ⟨0, 0, 0, 0, 0, none⟩

def countAccepted (m : Metrics) : Metrics := { m with accepted := m.accepted + 1 }

def countRefused (m : Metrics) : Refusal → Metrics
  | .noCapacity .. => { m with refusedForCapacity := m.refusedForCapacity + 1 }
  | .backlogFull .. => { m with refusedForBacklog := m.refusedForBacklog + 1 }

def countEvicted (m : Metrics) : Metrics := { m with evicted := m.evicted + 1 }

def countOrphaned (m : Metrics) : Metrics := { m with orphaned := m.orphaned + 1 }

def setOccupancy (m : Metrics) (active pending : Nat) : Metrics :=
  { m with occupancy := some (active, pending) }

def refused (m : Metrics) : Nat := m.refusedForCapacity + m.refusedForBacklog

def counters (m : Metrics) : List (String × Nat) :=
  [("stream_manager_accepted_total", m.accepted),
    ("stream_manager_rejected_total\x7breason=no_capacity\x7d", m.refusedForCapacity),
    ("stream_manager_rejected_total\x7breason=backlog_full\x7d", m.refusedForBacklog),
    ("stream_manager_evicted_total", m.evicted),
    ("stream_manager_orphaned_total", m.orphaned)]

def gauges (m : Metrics) : List (String × Nat) :=
  m.occupancy.elim [] fun o =>
    [("stream_manager_active_streams", o.1), ("stream_manager_pending_connections", o.2)]

/-- The series that were touched, by name. -/
def series (m : Metrics) : List (String × Nat) := m.counters.filter (0 < ·.2) ++ m.gauges

end Metrics

end BoundedStreams
