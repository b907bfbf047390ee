import BoundedStreams.Text.Visible

/-!
Text between double quotes. Quotes, backslashes and four controls are written with a backslash, and
what does not show by its code point in hexadecimal.
-/

namespace BoundedStreams.Text

def hexDigits (n : Nat) : String := String.ofList (Nat.toDigits 16 n)

def escape (c : Char) : String :=
  if c = '"' then "\\\""
  else if c = '\\' then "\\\\"
  else if c = '\x00' then "\\0"
  else if c = '\t' then "\\t"
  else if c = '\n' then "\\n"
  else if c = '\r' then "\\r"
  else if isVisible c then String.singleton c
  else "\\u\x7b" ++ hexDigits c.toNat ++ "\x7d"

def quoted (s : String) : String := "\"" ++ String.join (s.toList.map escape) ++ "\""

end BoundedStreams.Text
