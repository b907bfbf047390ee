import BoundedStreams.Stream.Handle

/-!
Choice of the stream that makes room: the one idle for the longest time, if that is long enough.
-/

namespace BoundedStreams

structure Candidate where
  stream : Handle
  lastActivity : Nat
  deriving DecidableEq

namespace Candidate

/-- The least recently active candidate, the first of several. -/
def oldest? : List Candidate → Option Candidate
  | [] => none
  | c :: cs =>
    match oldest? cs with
    | some d => if c.lastActivity ≤ d.lastActivity then some c else some d
    | none => some c

def idleTime (c : Candidate) (now : Nat) : Nat := now - c.lastActivity

def victim? (minIdle now : Nat) (cs : List Candidate) : Option Candidate :=
  (oldest? cs).filter (minIdle ≤ ·.idleTime now)

theorem oldest?_eq_none_iff {cs : List Candidate} : oldest? cs = none ↔ cs = [] := by
  cases cs with
  | nil => simp [oldest?]
  | cons c cs => simp only [oldest?]; split <;> (try split) <;> simp

theorem mem_of_oldest? {cs : List Candidate} {c : Candidate} (h : oldest? cs = some c) : c ∈ cs := by
  induction cs generalizing c with
  | nil => simp [oldest?] at h
  | cons d cs ih =>
    simp only [oldest?] at h
    split at h
    · next e he => split at h <;> grind
    · grind

theorem oldest?_le {cs : List Candidate} {c : Candidate} (h : oldest? cs = some c) :
    ∀ d ∈ cs, c.lastActivity ≤ d.lastActivity := by
  induction cs generalizing c with
  | nil => simp
  | cons d cs ih =>
    simp only [oldest?] at h
    split at h
    · next e he => split at h <;> grind
    · next he => grind [oldest?_eq_none_iff.mp he]

end Candidate

end BoundedStreams
