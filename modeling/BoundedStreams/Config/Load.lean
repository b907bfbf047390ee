import BoundedStreams.Config.Decode
import BoundedStreams.Config.Validation

/-!
Configurations that can be used: read, decoded and free of violations.
-/

namespace BoundedStreams

inductive ReadFailure where
  | missing
  | notUtf8
  deriving DecidableEq

def ReadFailure.message : ReadFailure → String
  | missing => "No such file or directory (os error 2)"
  | notUtf8 => "stream did not contain valid UTF-8"

inductive ConfigError where
  | unreadable (cause : ReadFailure)
  | malformed
  | invalid (violations : List Violation)

def ConfigError.message : ConfigError → String
  | unreadable cause => "IO error: " ++ cause.message
  | malformed => "Parse error"
  | invalid vs => "Validation failed: " ++ ", ".intercalate (vs.map (·.message))

namespace Config

def ofText (s : String) : Except ConfigError Config :=
  match ofToml? s with
  | none => .error .malformed
  | some c => c.validate.mapError .invalid

/-- From what a file holds, if there is a file. -/
def ofFile (content : Option ByteArray) : Except ConfigError Config :=
  match content with
  | none => .error (.unreadable .missing)
  | some bytes =>
    match String.fromUTF8? bytes with
    | none => .error (.unreadable .notUtf8)
    | some s => ofText s

end Config

end BoundedStreams
