import BoundedStreams.Text.Numeral
import BoundedStreams.Text.Reader
import BoundedStreams.Toml.Value

/-!
The scalar values of TOML: strings in four forms, numbers, booleans, dates and times.
-/

namespace BoundedStreams.Toml

open Text

def isBlank (c : Char) : Bool := c = ' ' || c = '\t'

def blanks : Reader Unit := do
  let _ ← Reader.takeWhile isBlank

def newline : Reader Unit := Reader.char '\n' <|> Reader.text "\r\n"

/-- What may stand in comments and, but for their delimiters, in strings. -/
def isPlain (c : Char) : Bool :=
  c = '\t' || (' ' ≤ c && c ≤ '~') || 128 ≤ c.toNat

def isBasic (c : Char) : Bool := isPlain c && c ≠ '"' && c ≠ '\\'

def isLiteral (c : Char) : Bool := isPlain c && c ≠ '\''

/-! ### Strings -/

def codePoint (digits : Nat) : Reader Char := do
  let n := valueOf 16 (← Reader.exactly digits (isDigit 16))
  if n.isValidChar then return Char.ofNat n else failure

def escaped : Reader Char := do
  Reader.char '\\'
  match ← Reader.satisfy fun _ => true with
  | 'b' => return '\x08'
  | 't' => return '\t'
  | 'n' => return '\n'
  | 'f' => return '\x0c'
  | 'r' => return '\r'
  | '"' => return '"'
  | '\\' => return '\\'
  | 'u' => codePoint 4
  | 'U' => codePoint 8
  | _ => failure

def basicString : Reader String := do
  Reader.char '"'
  let cs ← Reader.many (Reader.satisfy isBasic <|> escaped)
  Reader.char '"'
  return String.ofList cs

def literalString : Reader String := do
  Reader.char '\''
  let cs ← Reader.takeWhile isLiteral
  Reader.char '\''
  return String.ofList cs

/-- A backslash at the end of a line takes the white space that follows with it. -/
def lineContinuation : Reader (List Char) := do
  Reader.char '\\'
  blanks
  newline
  let _ ← Reader.many (newline <|> Reader.takeWhile1 isBlank *> pure ())
  return []

def lineBreak : Reader (List Char) := do
  newline
  return ['\n']

/-- One or two delimiters that a third does not follow. -/
def looseQuotes (quote : Char) : Reader (List Char) := fun cs =>
  let n := (cs.takeWhile (· = quote)).length
  if n = 1 || n = 2 then some (List.replicate n quote, cs.drop n) else none

/-- The end of a string of several lines; up to two more delimiters belong to the text. -/
def closingQuotes (quote : Char) : Reader (List Char) := fun cs =>
  let n := min (cs.takeWhile (· = quote)).length 5
  if 3 ≤ n then some (List.replicate (n - 3) quote, cs.drop n) else none

def multiLine (quote : Char) (content : Reader (List Char)) : Reader String := do
  Reader.chars [quote, quote, quote]
  let _ ← Reader.maybe newline
  let parts ← Reader.many (content <|> looseQuotes quote)
  let last ← closingQuotes quote
  return String.ofList (parts.flatten ++ last)

def multiLineBasicString : Reader String :=
  multiLine '"' (Reader.takeWhile1 isBasic <|> lineContinuation <|> ([·]) <$> escaped
    <|> lineBreak)

def multiLineLiteralString : Reader String :=
  multiLine '\'' (Reader.takeWhile1 isLiteral <|> lineBreak)

def string : Reader String :=
  multiLineBasicString <|> basicString <|> multiLineLiteralString <|> literalString

/-! ### Numbers -/

/-- Digits, with single underscores between them. -/
def digitRun (radix : Nat) : Reader (List Char) := Reader.taken do
  let _ ← Reader.satisfy (isDigit radix)
  Reader.many do
    let _ ← Reader.maybe (Reader.char '_')
    Reader.satisfy (isDigit radix)

def sign : Reader Bool := do
  match ← Reader.maybe (Reader.satisfy fun c => c = '+' || c = '-') with
  | some c => return c = '-'
  | none => return false

/-- Digits without a zero in front, or a single zero. -/
def wholeDigits : Reader (List Char) := do
  if (← Reader.peek) = some '0' then
    Reader.char '0'
    return ['0']
  else digitRun 10

/-- The least magnitude beyond the positive 64-bit integers, which a negative one still has. -/
def integerLimit : Nat := 9223372036854775808

def integerOf (negative : Bool) (n : Nat) : Reader Value :=
  if n < integerLimit || (negative && n = integerLimit) then
    return .integer (if negative then -(n : Int) else n)
  else failure

def radixInteger (mark : String) (radix : Nat) : Reader Value := do
  Reader.text mark
  integerOf false (valueOf radix (← digitRun radix))

def decimalInteger : Reader Value := do
  let negative ← sign
  integerOf negative (valueOf 10 (← wholeDigits))

/-- Markers of another radix take no sign. -/
def integer : Reader Value :=
  radixInteger "0x" 16 <|> radixInteger "0o" 8 <|> radixInteger "0b" 2 <|> decimalInteger

def fraction : Reader (List Char) := do
  Reader.char '.'
  digitRun 10

/-- The sign and the digits of an exponent. -/
def exponent : Reader (Bool × List Char) := do
  let _ ← Reader.satisfy fun c => c = 'e' || c = 'E'
  return (← sign, ← digitRun 10)

/-- The least magnitude that rounds beyond all finite 64-bit floating-point numbers. -/
def floatLimit : Nat := Nat.pow 2 1024 - Nat.pow 2 970

/-- Whether `m · 10 ^ e` is too great for a finite floating-point number. The number of digits
decides where it can, so that no needlessly great power is formed. -/
def overflowsFloat (m : Nat) (e : Int) : Bool :=
  let size := (Nat.toDigits 10 m).length + e
  if m = 0 || size < 300 then false
  else if 400 < size then true
  else if e < 0 then floatLimit * Nat.pow 10 e.natAbs ≤ m
  else floatLimit ≤ m * Nat.pow 10 e.natAbs

/-- A positive number beyond the finite ones is refused; a negative one passes. -/
def finiteFloat : Reader Value := do
  let (negative, front, tail, power) ← do
    let negative ← sign
    let front ← wholeDigits
    match ← Reader.maybe exponent with
    | some power => pure (negative, front, [], power)
    | none =>
      let tail ← fraction
      let power ← Reader.maybe exponent
      pure (negative, front, tail, power.getD (false, []))
  let digits := (front ++ tail).filter (isDigit 10)
  let places := (tail.filter (isDigit 10)).length
  let e : Int := valueOf 10 power.2
  let e := (if power.1 then -e else e) - places
  if !negative && overflowsFloat (valueOf 10 digits) e then failure
  else return .float (String.ofList (front ++ '.' :: tail))

def specialFloat : Reader Value := do
  let negative ← sign
  let word ← (do Reader.text "inf"; pure "inf") <|> (do Reader.text "nan"; pure "nan")
  return .float (if negative then "-" ++ word else word)

def float : Reader Value := finiteFloat <|> specialFloat

def boolean : Reader Value :=
  (do Reader.text "true"; pure (.boolean true)) <|> (do Reader.text "false"; pure (.boolean false))

/-! ### Dates and times -/

def numberOf (digits low high : Nat) : Reader Nat := do
  let n := valueOf 10 (← Reader.exactly digits (isDigit 10))
  if low ≤ n && n ≤ high then return n else failure

def isLeap (year : Nat) : Bool := year % 4 = 0 && (year % 100 ≠ 0 || year % 400 = 0)

def daysIn (year month : Nat) : Nat :=
  if month = 2 then (if isLeap year then 29 else 28)
  else if month = 4 || month = 6 || month = 9 || month = 11 then 30
  else 31

def date : Reader Unit := do
  let year ← numberOf 4 0 9999
  Reader.char '-'
  let month ← numberOf 2 1 12
  Reader.char '-'
  let _ ← numberOf 2 1 (daysIn year month)

/-- The last minute may have a leap second. -/
def time : Reader Unit := do
  let _ ← numberOf 2 0 23
  Reader.char ':'
  let _ ← numberOf 2 0 59
  Reader.char ':'
  let _ ← numberOf 2 0 60
  let _ ← Reader.maybe do
    Reader.char '.'
    Reader.takeWhile1 (isDigit 10)

def offset : Reader Unit := do
  let c ← Reader.satisfy fun c => c = 'Z' || c = 'z' || c = '+' || c = '-'
  if c = '+' || c = '-' then
    let _ ← numberOf 2 0 23
    Reader.char ':'
    let _ ← numberOf 2 0 59

def timeOfDay : Reader Unit := do
  let _ ← Reader.satisfy fun c => c = 'T' || c = 't' || c = ' '
  time
  let _ ← Reader.maybe offset

def dateTime : Reader Value := do
  let cs ← Reader.taken ((do date; let _ ← Reader.maybe timeOfDay) <|> time)
  return .dateTime (String.ofList cs)

def scalar : Reader Value := do
  match ← Reader.peek with
  | some '"' | some '\'' => .string <$> string
  | some 't' | some 'f' => boolean
  | _ => dateTime <|> float <|> integer

end BoundedStreams.Toml
