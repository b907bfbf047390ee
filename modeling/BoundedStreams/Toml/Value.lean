/-!
Values of a TOML document, and how tables grow from dotted keys and headers.
-/

namespace BoundedStreams.Toml

/-- What a table was made by: a literal between braces, a header of its own, a dotted key that leads
through it, or a header that leads through it. -/
inductive Origin where
  | literal
  | header
  | dotted
  | implied
  deriving DecidableEq

inductive Value where
  | string (s : String)
  | integer (n : Int)
  | float (text : String)
  | boolean (b : Bool)
  | dateTime (text : String)
  | array (items : List Value)
  | table (origin : Origin) (entries : List (String × Value))
  /-- An array of tables, each begun by a header. -/
  | tables (items : List (List (String × Value)))

abbrev Entries := List (String × Value)

structure Pair where
  path : List String
  key : String
  value : Value

inductive Heading where
  | root
  | table (path : List String) (key : String)
  | tables (path : List String) (key : String)

structure Part where
  heading : Heading
  pairs : List Pair

namespace Entries

def replace (es : Entries) (k : String) (v : Value) : Entries :=
  es.map fun e => if e.1 = k then (k, v) else e

/-- Changes the table that was begun last. -/
def changeLast? (f : Entries → Option Entries) (items : List Entries) : Option (List Entries) := do
  let last ← items.getLast?
  return items.dropLast ++ [← f last]

/-- Adds a value under a dotted path. Tables on the way must not have been closed by a literal or a
header, and the last one must be the work of dotted keys. -/
def insert? (key : String) (v : Value) : List String → Entries → Option Entries
  | [], es => if (es.lookup key).isSome then none else some (es ++ [(key, v)])
  | p :: path, es =>
    match es.lookup p with
    | none => do return es ++ [(p, .table .dotted (← insert? key v path []))]
    | some (.table .dotted inner) => do
      return es.replace p (.table .dotted (← insert? key v path inner))
    | some (.table .implied inner) =>
      if path.isEmpty then none
      else do return es.replace p (.table .implied (← insert? key v path inner))
    | some (.tables items) =>
      if path.isEmpty then none
      else do return es.replace p (.tables (← changeLast? (insert? key v path) items))
    | some _ => none

def addPair? (es : Entries) (p : Pair) : Option Entries := insert? p.key p.value p.path es

def addPairs? (es : Entries) (ps : List Pair) : Option Entries := ps.foldlM addPair? es

/-- Changes the table at the path of a header, which passes through any table but a literal one. -/
def changeAt? (f : Entries → Option Entries) : List String → Entries → Option Entries
  | [], es => f es
  | p :: path, es =>
    match es.lookup p with
    | none => do return es ++ [(p, .table .implied (← changeAt? f path []))]
    | some (.table .literal _) => none
    | some (.table origin inner) => do
      return es.replace p (.table origin (← changeAt? f path inner))
    | some (.tables items) => do
      return es.replace p (.tables (← changeLast? (changeAt? f path) items))
    | some _ => none

/-- Begins a table that is new, or that headers have only led through so far. -/
def beginTable? (key : String) (ps : List Pair) (parent : Entries) : Option Entries :=
  match parent.lookup key with
  | none => do return parent ++ [(key, .table .header (← addPairs? [] ps))]
  | some (.table .implied inner) => do
    return parent.replace key (.table .header (← addPairs? inner ps))
  | some _ => none

def extendTables? (key : String) (ps : List Pair) (parent : Entries) : Option Entries :=
  match parent.lookup key with
  | none => do return parent ++ [(key, .tables [← addPairs? [] ps])]
  | some (.tables items) => do
    return parent.replace key (.tables (items ++ [← addPairs? [] ps]))
  | some _ => none

def addPart? (root : Entries) (part : Part) : Option Entries :=
  match part.heading with
  | .root => root.addPairs? part.pairs
  | .table path key => root.changeAt? (beginTable? key part.pairs) path
  | .tables path key => root.changeAt? (extendTables? key part.pairs) path

end Entries

end BoundedStreams.Toml
