import BoundedStreams.Toml.Scalar

/-!
TOML documents: lines that set a key to a value, under headers that begin tables.
-/

namespace BoundedStreams.Toml

open Text

/-- Keys and brackets nest less deep than this. -/
def depthLimit : Nat := 80

def comment : Reader Unit := do
  Reader.char '#'
  let _ ← Reader.takeWhile isPlain

/-- Blanks, comments and line breaks, as between the items of an array. -/
def filler : Reader Unit := do
  blanks
  let _ ← Reader.many do
    let _ ← Reader.maybe comment
    newline
    blanks

/-- The rest of a line on which nothing more is said. -/
def lineEnd : Reader Unit := do
  blanks
  let _ ← Reader.maybe comment
  newline <|> Reader.atEnd

def bareKey : Reader String := do
  let isBare c := isDigit 36 c || c = '_' || c = '-'
  return String.ofList (← Reader.takeWhile1 isBare)

def simpleKey : Reader String := basicString <|> literalString <|> bareKey

/-- A dotted key, as the path to it and its last part. -/
def key : Reader (List String × String) := do
  let part := do
    blanks
    let k ← simpleKey
    blanks
    return k
  let parts ← Reader.separatedBy part (Reader.char '.')
  match parts.getLast? with
  | some k => if parts.length < depthLimit then return (parts.dropLast, k) else failure
  | none => failure

def pair (value : Reader Value) : Reader Pair := do
  let (path, k) ← key
  Reader.char '='
  blanks
  return ⟨path, k, ← value⟩

def array (value : Reader Value) : Reader Value := do
  Reader.char '['
  let item := do
    filler
    let v ← value
    filler
    return v
  let items ← Reader.maybe do
    let items ← Reader.separatedBy item (Reader.char ',')
    let _ ← Reader.maybe (Reader.char ',')
    return items
  filler
  Reader.char ']'
  return .array (items.getD [])

def inlineTable (value : Reader Value) : Reader Value := do
  Reader.char '\x7b'
  let spaced := do
    let p ← pair value
    blanks
    return p
  let pairs ← Reader.maybe (Reader.separatedBy spaced (Reader.char ','))
  blanks
  Reader.char '\x7d'
  match Entries.addPairs? [] (pairs.getD []) with
  | some es => return .table .literal es
  | none => failure

/-- A value with at most `depth` brackets or braces inside one another. -/
def value : (depth : Nat) → Reader Value
  | 0 => scalar
  | depth + 1 => do
    match ← Reader.peek with
    | some '[' => array (value depth)
    | some '\x7b' => inlineTable (value depth)
    | _ => scalar

def header : Reader Heading :=
  (do
    Reader.text "[["
    let (path, k) ← key
    Reader.text "]]"
    return .tables path k)
  <|> do
    Reader.char '['
    let (path, k) ← key
    Reader.char ']'
    return .table path k

inductive Line where
  | blank
  | heading (h : Heading)
  | pair (p : Pair)

def line : Reader Line := do
  let content ← do
    match ← Reader.peek with
    | some '#' => do comment; newline <|> Reader.atEnd; pure Line.blank
    | some '\n' | some '\r' => do newline; pure Line.blank
    | some '[' => do let h ← header; lineEnd; pure (Line.heading h)
    | _ => do let p ← pair (value (depthLimit - 1)); lineEnd; pure (Line.pair p)
  blanks
  return content

/-- The part under way and those after it. -/
def partsFrom (current : Part) : List Line → List Part
  | [] => [current]
  | .blank :: ls => partsFrom current ls
  | .heading h :: ls => current :: partsFrom ⟨h, []⟩ ls
  | .pair p :: ls => partsFrom { current with pairs := current.pairs ++ [p] } ls

/-- A byte order mark may go before the text. -/
def document : Reader (List Line) := do
  let _ ← Reader.maybe (Reader.char '\uFEFF')
  blanks
  Reader.many line

def parse? (s : String) : Option Entries := do
  let lines ← Reader.whole document s
  (partsFrom ⟨.root, []⟩ lines).foldlM Entries.addPart? []

end BoundedStreams.Toml
