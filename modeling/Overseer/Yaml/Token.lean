import Overseer.Yaml.Tag

/-!
# Tokens

The words of a YAML text. The starts and ends of block collections are tokens too, although
nothing but the indentation stands for them.
-/

namespace Overseer.Yaml

/-- How a scalar is written. -/
inductive Style where
  | plain | single | double | literal | folded
  deriving DecidableEq, Repr, Inhabited

/-- A word of a text. -/
inductive Token where
  | streamEnd
  | version (major minor : Nat)
  | tagDirective (handle : String) (expansion : List UInt8)
  | documentStart
  | documentEnd
  | blockSequenceStart
  | blockMappingStart
  | blockEnd
  | flowSequenceStart
  | flowSequenceEnd
  | flowMappingStart
  | flowMappingEnd
  | blockEntry
  | flowEntry
  | key
  | value
  | reference (name : String)
  | anchor (name : String)
  | tag (handle : String) (suffix : List UInt8)
  | scalar (text : String) (style : Style)
  deriving DecidableEq, Repr, Inhabited

/-- A token and where it stands. -/
structure Lexeme where
  token : Token
  start : Mark
  stop : Mark
  deriving DecidableEq, Repr, Inhabited

end Overseer.Yaml
