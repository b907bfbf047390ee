import BoundedStreams.Manager.Turn

/-!
A consumer that claims every connection offered to it and writes back what it reads. While some of a
chunk is left over nothing new is read, so a session keeps at most one chunk.
-/

namespace BoundedStreams

structure EchoStats where
  opened : Nat
  closed : Nat
  active : Nat
  bytesEchoed : Nat

structure Echo where
  /-- The bytes each session has read and not written yet. -/
  sessions : Table Handle Bytes
  stats : EchoStats

namespace Echo

variable {κ : Type}

def chunk : Nat := 1024

def fresh : Echo := ⟨.empty, ⟨0, 0, 0, 0⟩⟩

def openSession (e : Echo) (h : Handle) : Echo :=
  let sessions := e.sessions.set h []
  ⟨sessions, { e.stats with opened := e.stats.opened + 1, active := sessions.size }⟩

def closeSession (e : Echo) (h : Handle) : Echo :=
  if e.sessions.contains h then
    let sessions := e.sessions.erase h
    ⟨sessions, { e.stats with closed := e.stats.closed + 1, active := sessions.size }⟩
  else e

def leftover (e : Echo) (h : Handle) : Bytes := (e.sessions.get? h).getD []

def keep (e : Echo) (h : Handle) (bytes : Bytes) : Echo :=
  { e with sessions := e.sessions.set h bytes }

def countEchoed (e : Echo) (n : Nat) : Echo :=
  { e with stats := { e.stats with bytesEchoed := e.stats.bytesEchoed + n } }

/-- Opens the listener of a manager under the callback `self`, which its streams get as well. -/
def attach (self : κ) (s : Site κ) : Except ListenerError Echo × Site κ :=
  match s.openListener self with
  | (.ok (), s) => (.ok fresh, s.note (.echoAttached s.manager.port))
  | (.error e, s) => (.error e, s)

def endSession (h : Handle) (w : Site κ × Echo) : Site κ × Echo :=
  ((w.1.close h).note (.sessionEnded h), w.2.closeSession h)

def onOffer (self : κ) (w : Site κ × Echo) : Site κ × Echo :=
  match w.1.accept with
  | (none, s) => (s, w.2)
  | (some h, s) =>
    let e := w.2.openSession h
    match (s.note (.sessionStarted h)).arm h .read (some self) with
    | (.ok (), s) => (s, e)
    | (.error cause, s) => endSession h (s.note (.sessionUnarmed h cause), e)

/-- How much of the bytes was taken; a full queue takes nothing, a lost stream gives `none`. -/
def send (s : Site κ) (h : Handle) (bytes : Bytes) : Option Nat × Site κ :=
  match s.write h bytes with
  | (.ok n, s) => (some n, s)
  | (.error .busy, s) => (some 0, s)
  | (.error _, s) => (none, s)

/-- Echoes one chunk. The result is what to wait for next, or `none` when the session is over. -/
def onReadable (h : Handle) (w : Site κ × Echo) : Option Interests × Site κ × Echo :=
  match w.1.read h chunk with
  | (.ok [], s) => (none, s.note (.sessionFinished h), w.2)
  | (.error .busy, s) => (some .read, s, w.2)
  | (.error _, s) => (none, s, w.2)
  | (.ok bytes, s) =>
    match send s h bytes with
    | (none, s) => (none, s, w.2)
    | (some n, s) =>
      let e := w.2.countEchoed n
      if n = bytes.length then (some .read, s, e)
      else (some .write, s, e.keep h (e.leftover h ++ bytes.drop n))

/-- Writes what was left over. -/
def onWritable (h : Handle) (w : Site κ × Echo) : Option Interests × Site κ × Echo :=
  match w.2.sessions.get? h with
  | none => (none, w)
  | some [] => (some .read, w)
  | some bytes =>
    match send w.1 h bytes with
    | (none, s) => (none, s, w.2.keep h [])
    | (some n, s) =>
      let e := (w.2.countEchoed n).keep h (bytes.drop n)
      (some (if n = bytes.length then .read else .write), s, e)

def onEvent (self : κ) (h : Handle) (e : StreamEvent) (w : Site κ × Echo) : Site κ × Echo :=
  let (next, s, e) :=
    match e with
    | .readable => onReadable h w
    | .writable => onWritable h w
  match next with
  | none => endSession h (s, e)
  | some want =>
    match s.arm h want (some self) with
    | (.ok (), s) => (s, e)
    | (.error _, s) => endSession h (s, e)

def consumer (self : κ) : Consumer κ Echo
  | .offer _, w => onOffer self w
  | .event _ h e, w => onEvent self h e w

end Echo

end BoundedStreams
