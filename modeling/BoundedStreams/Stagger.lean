/-!
Spacing of offers: a least interval between two offers, and a quiet period after each close.
-/

namespace BoundedStreams

structure Stagger where
  interval : Nat
  quiet : Nat
  lastOffer : Option Nat
  lastClose : Option Nat

namespace Stagger

def unused (interval quiet : Nat) : Stagger := ⟨interval, quiet, none, none⟩

/-- At `now` at least `span` has passed since the instant, if there was one. -/
def hasPassed (span now : Nat) : Option Nat → Bool
  | some t => span ≤ now - t
  | none => true

def mayOffer (s : Stagger) (now : Nat) : Bool :=
  hasPassed s.interval now s.lastOffer && hasPassed s.quiet now s.lastClose

def offered (s : Stagger) (now : Nat) : Stagger := { s with lastOffer := some now }

def closed (s : Stagger) (now : Nat) : Stagger := { s with lastClose := some now }

theorem hasPassed_iff {span now : Nat} {t : Option Nat} :
    hasPassed span now t = true ↔ ∀ u, t = some u → span ≤ now - u := by
  cases t <;> simp [hasPassed]

theorem mayOffer_iff (s : Stagger) (now : Nat) :
    s.mayOffer now = true ↔
      (∀ t, s.lastOffer = some t → s.interval ≤ now - t) ∧
        ∀ t, s.lastClose = some t → s.quiet ≤ now - t := by
  simp [mayOffer, hasPassed_iff]

end Stagger

end BoundedStreams
