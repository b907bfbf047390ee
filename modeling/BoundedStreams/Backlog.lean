import BoundedStreams.Socket

/-!
Connections that were admitted and not claimed yet, oldest first. Its length is the pending count.
-/

namespace BoundedStreams

structure Pending where
  socket : SocketId
  acceptedAt : Nat
  offered : Bool
  deriving DecidableEq

abbrev Backlog := List Pending

namespace Backlog

def push (b : Backlog) (s : SocketId) (now : Nat) : Backlog := b ++ [⟨s, now, false⟩]

/-- Takes the oldest connection, offered or not. -/
def claim : Backlog → Option (Pending × Backlog)
  | [] => none
  | p :: b => some (p, b)

def holds (b : Backlog) (s : SocketId) : Bool := b.any (·.socket = s)

/-- Drops the first entry of a socket. -/
def withdraw (b : Backlog) (s : SocketId) : Backlog := b.eraseP (·.socket = s)

def nextUnoffered? (b : Backlog) : Option Pending := b.find? (!·.offered)

def hasUnoffered (b : Backlog) : Bool := b.any (!·.offered)

/-- Marks the oldest entry that was not offered yet, and shows it. -/
def offer : Backlog → Option (Pending × Backlog)
  | [] => none
  | p :: b =>
    if p.offered then (offer b).map fun (q, b) => (q, p :: b)
    else some ({ p with offered := true }, { p with offered := true } :: b)

def sockets (b : Backlog) : List SocketId := b.map (·.socket)

@[simp] theorem sockets_push (b : Backlog) (s : SocketId) (now : Nat) :
    (push b s now).sockets = b.sockets ++ [s] := by
  simp [push, sockets]

theorem holds_iff {b : Backlog} {s : SocketId} : b.holds s = true ↔ s ∈ b.sockets := by
  simp [holds, sockets]

theorem sockets_withdraw (b : Backlog) (s : SocketId) :
    (b.withdraw s).sockets = b.sockets.erase s := by
  induction b with
  | nil => rfl
  | cons p b ih =>
    by_cases h : p.socket = s
    · simp [withdraw, sockets, h]
    · simpa [withdraw, sockets, h] using ih

theorem claim_eq_none_iff {b : Backlog} : claim b = none ↔ b = [] := by
  cases b <;> simp [claim]

theorem isSome_offer (b : Backlog) : (offer b).isSome = hasUnoffered b := by
  induction b with
  | nil => rfl
  | cons p b ih => cases h : p.offered <;> simp_all [offer, hasUnoffered]

theorem sockets_offer {b c : Backlog} {p : Pending} (h : offer b = some (p, c)) :
    sockets c = sockets b := by
  induction b generalizing c with
  | nil => simp [offer] at h
  | cons q b ih =>
    simp only [offer] at h
    split at h
    · obtain ⟨⟨r, d⟩, hd, he⟩ := Option.map_eq_some_iff.mp h
      simp only [Prod.mk.injEq] at he
      obtain ⟨rfl, rfl⟩ := he
      simp only [sockets, List.map_cons, List.cons.injEq, true_and]
      exact ih hd
    · simp only [Option.some.injEq, Prod.mk.injEq] at h
      obtain ⟨-, rfl⟩ := h
      rfl

end Backlog

end BoundedStreams
