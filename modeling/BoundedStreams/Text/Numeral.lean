/-!
Digits and the numbers they stand for.
-/

namespace BoundedStreams.Text

def digit? (radix : Nat) (c : Char) : Option Nat :=
  let n :=
    if '0' ≤ c && c ≤ '9' then c.toNat - '0'.toNat
    else if 'a' ≤ c && c ≤ 'z' then c.toNat - 'a'.toNat + 10
    else if 'A' ≤ c && c ≤ 'Z' then c.toNat - 'A'.toNat + 10
    else radix
  if n < radix then some n else none

def isDigit (radix : Nat) (c : Char) : Bool := (digit? radix c).isSome

/-- The number that digits stand for; other characters between them do not count. -/
def valueOf (radix : Nat) (cs : List Char) : Nat :=
  (cs.filterMap (digit? radix)).foldl (fun n d => n * radix + d) 0

end BoundedStreams.Text
