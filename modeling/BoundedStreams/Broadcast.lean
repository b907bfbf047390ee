/-!
A stop signal for many receivers. The channel keeps the last signal only: a receiver that was too
slow first hears how many it lost, then gets the one that is kept.
-/

namespace BoundedStreams

structure Broadcast where
  sent : Nat
  /-- Senders by number, and whether they are still held. -/
  senders : List Bool
  /-- Receivers by number, with the count of signals each has behind it, while they are held. -/
  receivers : List (Option Nat)

namespace Broadcast

inductive Received where
  | signal
  | empty
  | closed
  | lagged (lost : Nat)
  deriving DecidableEq

def opened : Broadcast := ⟨0, [true], []⟩

def hasSender (b : Broadcast) (i : Nat) : Bool := b.senders[i]?.getD false

def hasReceiver (b : Broadcast) (i : Nat) : Bool := (b.receivers[i]?.join).isSome

def receiverCount (b : Broadcast) : Nat := (b.receivers.filter (·.isSome)).length

/-- A new receiver hears of later signals only. -/
def subscribe (b : Broadcast) : Nat × Broadcast :=
  (b.receivers.length, { b with receivers := b.receivers ++ [some b.sent] })

def cloneSender (b : Broadcast) : Nat × Broadcast :=
  (b.senders.length, { b with senders := b.senders ++ [true] })

/-- Without receivers the signal is lost. -/
def trigger (b : Broadcast) : Broadcast :=
  if b.receiverCount = 0 then b else { b with sent := b.sent + 1 }

def dropSender (b : Broadcast) (i : Nat) : Broadcast := { b with senders := b.senders.set i false }

def dropReceiver (b : Broadcast) (i : Nat) : Broadcast :=
  { b with receivers := b.receivers.set i none }

/-- What a receiver that has `seen` signals behind it gets, and how many it has behind it then. -/
def next (b : Broadcast) (seen : Nat) : Received × Nat :=
  if seen = b.sent then (if b.senders.any id then .empty else .closed, seen)
  else if seen + 1 = b.sent then (.signal, b.sent)
  else (.lagged (b.sent - 1 - seen), b.sent - 1)

def receive (b : Broadcast) (i : Nat) : Option Received × Broadcast :=
  match b.receivers[i]? with
  | some (some seen) =>
    let (r, seen) := b.next seen
    (some r, { b with receivers := b.receivers.set i (some seen) })
  | _ => (none, b)

end Broadcast

end BoundedStreams
