import BoundedStreams.Config.Basic
import BoundedStreams.Text.Numeral

/-!
What a command line asks for: a file with settings, and two settings that go before the file's.
-/

namespace BoundedStreams

structure Arguments where
  file : Option String
  port : Option Port
  capacity : Option UInt64

namespace Arguments

def unset : Arguments := ⟨none, none, none⟩

def number? (limit : Nat) (s : String) : Option Nat :=
  let cs := s.toList
  let n := Text.valueOf 10 cs
  if !cs.isEmpty && cs.all (Text.isDigit 10) && n < limit then some n else none

/-- Sets what a flag stands for, unless it was set before. -/
def set? (a : Arguments) (flag value : String) : Option Arguments :=
  match flag with
  | "-c" | "--config" => if a.file.isSome then none else some { a with file := some value }
  | "-p" | "--port" =>
    if a.port.isSome then none
    else (number? UInt16.size value).map fun n => { a with port := some (.ofNat n) }
  | "--capacity" =>
    if a.capacity.isSome then none
    else (number? UInt64.size value).map fun n => { a with capacity := some (.ofNat n) }
  | _ => none

def addAll? (a : Arguments) : List String → Option Arguments
  | [] => some a
  | flag :: value :: rest => (a.set? flag value).bind (·.addAll? rest)
  | [_] => none

def ofList? (args : List String) : Option Arguments := unset.addAll? args

/-- A capacity of zero leaves the configured one. -/
def apply (a : Arguments) (c : Config) : Config :=
  { c with listener := { c.listener with
      port := a.port.getD c.listener.port
      maxStreams := (a.capacity.filter (0 < ·)).getD c.listener.maxStreams } }

theorem apply_unset (c : Config) : unset.apply c = c := rfl

theorem maxStreams_apply_ne_zero (a : Arguments) (c : Config) (h : c.listener.maxStreams ≠ 0) :
    (a.apply c).listener.maxStreams ≠ 0 := by
  simp only [apply]
  cases hc : a.capacity with
  | none => simpa using h
  | some n =>
    by_cases hn : 0 < n
    · simpa [Option.filter, hn] using (UInt64.ne_of_lt hn).symm
    · simpa [Option.filter, hn] using h

end Arguments

end BoundedStreams
