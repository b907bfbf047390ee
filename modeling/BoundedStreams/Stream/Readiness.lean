/-!
From buffer levels to notifications: after one notification there is silence until the consumer arms
the stream again.
-/

namespace BoundedStreams

structure Interests where
  readable : Bool
  writable : Bool
  deriving DecidableEq

inductive StreamEvent where
  | readable
  | writable
  deriving DecidableEq

def StreamEvent.name : StreamEvent → String
  | readable => "Readable"
  | writable => "Writable"

namespace Interests

def none : Interests := ⟨false, false⟩
def read : Interests := ⟨true, false⟩
def write : Interests := ⟨false, true⟩

def isEmpty (i : Interests) : Bool := !i.readable && !i.writable

def union (i j : Interests) : Interests := ⟨i.readable || j.readable, i.writable || j.writable⟩

def has (i : Interests) : StreamEvent → Bool
  | .readable => i.readable
  | .writable => i.writable

end Interests

structure Readiness where
  interests : Interests
  /-- The notification given since the stream was last armed. -/
  outstanding : Option StreamEvent

namespace Readiness

def unarmed : Readiness := ⟨.none, .none⟩

def armed (i : Interests) : Readiness := ⟨i, .none⟩

/-- What levels call for: a drained output goes before waiting input. -/
def due? (i : Interests) (inbound outbound : Nat) : Option StreamEvent :=
  if i.writable && outbound = 0 then some .writable
  else if i.readable && 0 < inbound then some .readable
  else .none

/-- What the end of a stream calls for: a reader hears of it before a writer. -/
def dueAtEnd? (i : Interests) : Option StreamEvent :=
  if i.readable then some .readable
  else if i.writable then some .writable
  else .none

/-- Gives the event out unless there is none or one is outstanding. -/
def give (r : Readiness) (due : Option StreamEvent) : Option StreamEvent × Readiness :=
  match r.outstanding, due with
  | .none, some e => (some e, { r with outstanding := some e })
  | _, _ => (.none, r)

def poll (r : Readiness) (inbound outbound : Nat) : Option StreamEvent × Readiness :=
  r.give (due? r.interests inbound outbound)

def pollEnd (r : Readiness) : Option StreamEvent × Readiness :=
  r.give (dueAtEnd? r.interests)

theorem give_fst (r : Readiness) (due : Option StreamEvent) :
    (r.give due).1 = if r.outstanding.isNone then due else .none := by
  unfold give
  cases h : r.outstanding <;> cases due <;> simp

theorem has_of_due? {i : Interests} {inbound outbound : Nat} {e : StreamEvent}
    (h : due? i inbound outbound = some e) : i.has e = true := by
  unfold due? at h
  grind [Interests.has]

theorem has_of_dueAtEnd? {i : Interests} {e : StreamEvent} (h : dueAtEnd? i = some e) :
    i.has e = true := by
  unfold dueAtEnd? at h
  grind [Interests.has]

end Readiness

end BoundedStreams
