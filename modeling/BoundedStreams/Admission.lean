/-!
Whether a new connection may enter the backlog. Pending connections count against free capacity, and
the backlog has a ceiling of its own, which is checked first.
-/

namespace BoundedStreams

inductive Refusal where
  | noCapacity (capacity active pending : Nat)
  | backlogFull (pending maxPending : Nat)
  deriving DecidableEq

namespace Refusal

def label : Refusal → String
  | noCapacity .. => "no_capacity"
  | backlogFull .. => "backlog_full"

def message : Refusal → String
  | noCapacity capacity active pending =>
    "no free stream slot (" ++ toString active ++ "/" ++ toString capacity ++ " active, "
      ++ toString pending ++ " pending)"
  | backlogFull pending maxPending =>
    "pending backlog full (" ++ toString pending ++ "/" ++ toString maxPending ++ ")"

end Refusal

def admission (capacity active pending maxPending : Nat) : Except Refusal Unit :=
  if maxPending ≤ pending then .error (.backlogFull pending maxPending)
  else if capacity - active ≤ pending then .error (.noCapacity capacity active pending)
  else .ok ()

theorem admission_eq_ok_iff {capacity active pending maxPending : Nat} :
    admission capacity active pending maxPending = .ok () ↔
      pending < maxPending ∧ active + pending < capacity := by
  unfold admission
  split
  · simp; omega
  · split
    · simp; omega
    · simp; omega

theorem admission_eq_noCapacity_iff {capacity active pending maxPending : Nat} :
    admission capacity active pending maxPending = .error (.noCapacity capacity active pending) ↔
      pending < maxPending ∧ capacity ≤ active + pending := by
  unfold admission
  split
  · simp; omega
  · split
    · simp; omega
    · simp; omega

end BoundedStreams
