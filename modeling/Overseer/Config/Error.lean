import Overseer.Config.Decode
import Overseer.Fault

/-!
# Why a configuration cannot be loaded
-/

namespace Overseer

/-- The errors of loading a configuration. -/
inductive ConfigError where
  /-- The prefix of environment variables is empty. -/
  | emptyPrefix
  /-- A file cannot be read as text. -/
  | unreadable (reason : String)
  /-- A file is not what its format allows. -/
  | malformed (message : String)
  /-- The merged values do not fit the settings. The origin is the source of the value, if it is
  known. -/
  | unfit (m : Mismatch) (origin : Option String)
  deriving DecidableEq, Repr

namespace ConfigError

/-- The key of a value in messages. -/
def key (path : List String) : String := ".".intercalate ("default" :: path)

/-- The source of an error that has no more to say than its text. -/
def cause : ConfigError → Option String
  | unreadable reason => some reason
  | malformed message => some message
  | unfit (.kind ..) _ => none
  | unfit (.missing _) _ => none
  | unfit m origin =>
    some (m.problem
      ++ (if m.path.isEmpty then "" else " for key " ++ Text.quoted (key m.path))
      ++ (origin.map (" in " ++ ·)).getD "")
  | emptyPrefix => none

def message (e : ConfigError) : String :=
  match e with
  | emptyPrefix => "Environment variable prefix must not be empty."
  | unfit (.missing field) _ => "Missing field '" ++ field ++ "' in configuration."
  | unfit (.kind path expected found) _ =>
    "Expected value for field '" ++ ".".intercalate path ++ "' to be '" ++ expected
      ++ "', got '" ++ found ++ "' instead."
  | e => "Failed to load configuration: " ++ e.cause.getD ""

def toFault (e : ConfigError) : Fault := ⟨e.message, e.cause.toList⟩

end ConfigError

end Overseer
