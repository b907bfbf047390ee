import BoundedStreams.Socket

/-!
Ports for those who ask for any port: a cycle through `base, base + 1, …, 65535`, or always 0, which
leaves the choice to the network.
-/

namespace BoundedStreams

structure PortSource where
  base : Port
  upcoming : Option Port

namespace PortSource

def startingAt (base : Port) : PortSource := ⟨base, if base = 0 then none else some base⟩

def assignedByNetwork : PortSource := ⟨0, none⟩

def standard : PortSource := startingAt 9000

def successor (s : PortSource) (p : Port) : Port := if p = 65535 then s.base else p + 1

def next (s : PortSource) : Port × PortSource :=
  match s.upcoming with
  | some p => (p, { s with upcoming := some (s.successor p) })
  | none => (0, s)

end PortSource

end BoundedStreams
