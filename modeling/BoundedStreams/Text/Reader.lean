/-!
Readers of text: each takes a prefix of the characters it is given, or fails.
-/

namespace BoundedStreams.Text

abbrev Reader := StateT (List Char) Option

namespace Reader

variable {α β : Type}

def satisfy (p : Char → Bool) : Reader Char
  | c :: cs => if p c then some (c, cs) else none
  | [] => none

def char (c : Char) : Reader Unit
  | d :: cs => if d = c then some ((), cs) else none
  | [] => none

def chars : List Char → Reader Unit
  | [] => pure ()
  | c :: cs => do char c; chars cs

def text (s : String) : Reader Unit := chars s.toList

/-- The next character, left where it is. -/
def peek : Reader (Option Char) := fun cs => some (cs.head?, cs)

def atEnd : Reader Unit
  | [] => some ((), [])
  | _ => none

def takeWhile (p : Char → Bool) : Reader (List Char) := fun cs =>
  some (cs.takeWhile p, cs.dropWhile p)

def takeWhile1 (p : Char → Bool) : Reader (List Char) := do
  let cs ← takeWhile p
  if cs.isEmpty then failure else return cs

/-- Exactly `n` characters of a kind. -/
def exactly (n : Nat) (p : Char → Bool) : Reader (List Char) := fun cs =>
  let taken := cs.take n
  if taken.length = n && taken.all p then some (taken, cs.drop n) else none

def maybe (r : Reader α) : Reader (Option α) := fun cs =>
  match r cs with
  | some (a, rest) => some (some a, rest)
  | none => some (none, cs)

def manyUpTo (r : Reader α) : Nat → List Char → List α × List Char
  | 0, cs => ([], cs)
  | n + 1, cs =>
    match r cs with
    | some (a, rest) => let (as, rest) := manyUpTo r n rest; (a :: as, rest)
    | none => ([], cs)

/-- As often as it goes; each round takes a character at least. -/
def many (r : Reader α) : Reader (List α) := fun cs => some (manyUpTo r cs.length cs)

def separatedBy (r : Reader α) (separator : Reader Unit) : Reader (List α) := do
  let a ← r
  let as ← many do
    separator
    r
  return a :: as

/-- The characters that a reader takes. -/
def taken (r : Reader α) : Reader (List Char) := fun cs =>
  (r cs).map fun (_, rest) => (cs.take (cs.length - rest.length), rest)

/-- Reads all of a text. -/
def whole (r : Reader α) (s : String) : Option α :=
  match r s.toList with
  | some (a, []) => some a
  | _ => none

end Reader

end BoundedStreams.Text
