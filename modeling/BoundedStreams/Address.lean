import BoundedStreams.Text.Numeral
import BoundedStreams.Text.Reader

/-!
Textual addresses: four decimal octets, or eight groups of hexadecimal digits of which one run of
zeros may be left out and the last two may be written as octets; and either of them with a port.
-/

namespace BoundedStreams

inductive IpAddress where
  | v4 (octets : List Nat)
  | v6 (groups : List Nat)
  deriving DecidableEq

structure SocketAddress where
  ip : IpAddress
  port : Nat
  deriving DecidableEq

namespace Address

open Text

/-- All digits that follow, as a number of at most `greatest`. -/
def number (radix greatest : Nat) : Reader Nat := do
  let n := valueOf radix (← Reader.takeWhile1 (isDigit radix))
  if n ≤ greatest then return n else failure

/-- Three digits at most, without a superfluous zero in front. -/
def octet : Reader Nat := do
  let ds ← Reader.takeWhile1 (isDigit 10)
  if 3 < ds.length || (ds.head? = some '0' && 1 < ds.length) || 255 < valueOf 10 ds then failure
  else return valueOf 10 ds

def group : Reader Nat := do
  let ds ← Reader.takeWhile1 (isDigit 16)
  if 4 < ds.length then failure else return valueOf 16 ds

def octets : Reader (List Nat) := do
  let a ← octet
  Reader.char '.'
  let b ← octet
  Reader.char '.'
  let c ← octet
  Reader.char '.'
  let d ← octet
  return [a, b, c, d]

/-- Octets in the place of two groups. -/
def octetPair : Reader (List Nat) := do
  match ← octets with
  | [a, b, c, d] => return [256 * a + b, 256 * c + d]
  | _ => failure

/-- At most `room` groups, as many as there are, and whether they end with octets. -/
def groups : (room : Nat) → (isFirst : Bool) → Reader (List Nat × Bool)
  | 0, _ => return ([], false)
  | room + 1, isFirst => do
    let start := if isFirst then pure () else Reader.char ':'
    match ← Reader.maybe do
      start
      if room = 0 then failure else octetPair with
    | some gs => return (gs, true)
    | none =>
      match ← Reader.maybe do
        start
        group with
      | some g =>
        let (gs, mixed) ← groups room false
        return (g :: gs, mixed)
      | none => return ([], false)

def v6 : Reader IpAddress := do
  let (front, mixed) ← groups 8 true
  if front.length = 8 then return .v6 front
  else if mixed then failure
  else
    Reader.text "::"
    let (back, _) ← groups (7 - front.length) true
    return .v6 (front ++ List.replicate (8 - front.length - back.length) 0 ++ back)

def v4 : Reader IpAddress := .v4 <$> octets

def ip : Reader IpAddress := v4 <|> v6

/-- A scope is read and not kept. -/
def scope : Reader Unit := do
  Reader.char '%'
  let _ ← number 10 4294967295

def bracketed : Reader IpAddress := do
  Reader.char '['
  let a ← v6
  let _ ← Reader.maybe scope
  Reader.char ']'
  return a

def withPort (address : Reader IpAddress) : Reader SocketAddress := do
  let a ← address
  Reader.char ':'
  return ⟨a, ← number 10 65535⟩

def socket : Reader SocketAddress := withPort v4 <|> withPort bracketed

end Address

def IpAddress.parse? (s : String) : Option IpAddress := Text.Reader.whole Address.ip s

def SocketAddress.parse? (s : String) : Option SocketAddress := Text.Reader.whole Address.socket s

end BoundedStreams
