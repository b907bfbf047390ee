/-!
Spans of time, and instants as spans from the start of a run. Both are counted in nanoseconds.
-/

namespace BoundedStreams.Duration

/-- The greatest representable span: all seconds of a 64-bit count and one nanosecond less than a
further second. -/
def greatest : Nat := 18446744073709551615999999999

def ofMillis (n : Nat) : Nat := n * 1000000

/-- Whole milliseconds, of which 64 bits are kept. -/
def millis (d : Nat) : Nat := d / 1000000 % UInt64.size

/-- The instant `d` after `t`, if it is representable. -/
def after? (t d : Nat) : Option Nat :=
  if t + d ≤ greatest then some (t + d) else none

theorem after?_eq_some_iff {t d u : Nat} :
    after? t d = some u ↔ u = t + d ∧ u ≤ greatest := by
  unfold after?
  split <;> simp <;> omega

theorem after?_eq_none_iff {t d : Nat} : after? t d = none ↔ greatest < t + d := by
  simp [after?]

theorem millis_ofMillis {n : Nat} (h : n < UInt64.size) : millis (ofMillis n) = n := by
  simp only [millis, ofMillis, UInt64.size] at h ⊢
  omega

end BoundedStreams.Duration
