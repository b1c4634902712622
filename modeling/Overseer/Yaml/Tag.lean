import Overseer.Yaml.Cursor

/-!
# Tags

The name of a tag is a row of bytes, because any byte can be written as an escape. `Tag.core` are
the tags that ask for a kind of scalar, and `Tag.own?` is the name of a tag that a document has
for itself.
-/

namespace Overseer.Yaml

/-- The name of a tag. -/
structure Tag where
  octets : List UInt8
  deriving DecidableEq, Repr, Inhabited

namespace Tag

/-- The bytes of a text that is ASCII. -/
def ascii (s : String) : List UInt8 := s.toList.map fun c => UInt8.ofNat c.toNat

/-- The bytes before the first zero: a zero ends a name. -/
def untilZero (octets : List UInt8) : List UInt8 := octets.takeWhile (· != 0)

/-- The tag whose name is written in two parts. -/
def ofParts (first second : List UInt8) : Tag := ⟨untilZero first ++ untilZero second⟩

/-- A tag of the core schema. -/
def core (kind : String) : Tag := ⟨ascii ("tag:yaml.org,2002:" ++ kind)⟩

/-- Does the name begin with an exclamation mark? -/
def isLocal (t : Tag) : Bool := t.octets.head? == some 0x21

/-- The name behind the exclamation mark of a local tag, or the mark itself if nothing is behind
it. A name that is no text does not count. -/
def own? (t : Tag) : Option String :=
  if t.isLocal then
    let rest := t.octets.tail
    String.fromUTF8? ⟨(if rest.isEmpty then t.octets else rest).toArray⟩
  else none

end Tag

end Overseer.Yaml
