import Overseer.Config.Error
import Overseer.Config.JsonText
import Overseer.Config.Variables
import Overseer.Config.YamlText

/-!
# Configuration sources

A `Source` is a file or the environment. `Source.layer?` takes a snapshot of one, and
`Layer.merged` lays the snapshots over one another in order: later values win, dictionaries merge
key by key, arrays are joined. An optional file that cannot be read leaves no layer at all.
`extract` reads settings out of the merged values.
-/

namespace Overseer

/-- The format of a file. -/
inductive FileFormat where
  | yaml | json
  deriving DecidableEq, Repr

namespace FileFormat

def name : FileFormat → String
  | yaml => "YAML"
  | json => "JSON"

/-- What stands behind the last point of a file name, if there is one that is not its first
character. -/
def extension? (fileName : List Char) : Option (List Char) :=
  let behind := (fileName.reverse.takeWhile (· != '.')).reverse
  if behind.length + 1 < fileName.length then some behind else none

/-- The format of a file with a name: JSON if the name says so in any case, and YAML otherwise. -/
def ofName (fileName : String) : FileFormat :=
  if (extension? fileName.toList).any fun e => e.map Char.toLower == "json".toList then .json
  else .yaml

/-- The entries that a text in a format gives. -/
def parse (format : FileFormat) (text : String) : Except ConfigError Entries :=
  match format with
  | yaml => (Yaml.parseEntries text).mapError fun e => .malformed e.message
  | json => (Json.parseEntries text).mapError fun e => .malformed e.message

end FileFormat

/-- A configuration file. -/
structure File where
  /-- The name in messages, if the file has one. -/
  name : Option String := none
  format : FileFormat
  /-- The bytes of the file, if it exists. -/
  contents : Option ByteArray

namespace File

/-- The text of a file. -/
def text (f : File) : Except ConfigError String :=
  match f.contents with
  | none => .error (.unreadable "No such file or directory (os error 2)")
  | some bytes =>
    match String.fromUTF8? bytes with
    | none => .error (.unreadable "stream did not contain valid UTF-8")
    | some s => .ok s

def entries (f : File) : Except ConfigError Entries := f.text.bind f.format.parse

/-- The file in messages about its values. -/
def origin (f : File) : Option String := f.name.map (· ++ " " ++ f.format.name ++ " file")

end File

/-- Where configuration comes from. -/
inductive Source where
  /-- A file that has to be there. -/
  | file (f : File)
  /-- A file that counts only if it can be read. -/
  | optional (f : File)
  /-- The environment variables under a prefix. -/
  | environment (start : String)

/-- A snapshot of a source. -/
structure Layer where
  entries : Entries
  origin : Option String := none

/-- A snapshot of a source, given all environment variables. -/
def Source.layer? (environment : List (String × String)) :
    Source → Except ConfigError (Option Layer)
  | .file f => f.entries.map fun es => some ⟨es, f.origin⟩
  | .optional f => .ok (f.entries.toOption.map fun es => ⟨es, f.origin⟩)
  | .environment start =>
    if start.isEmpty then .error .emptyPrefix
    else .ok (some ⟨Variables.entries start environment, none⟩)

/-- Snapshots of all sources, in order. The first source that fails decides. -/
def Source.layers (environment : List (String × String)) (sources : List Source) :
    Except ConfigError (List Layer) :=
  return (← sources.mapM (layer? environment)).filterMap id

namespace Layer

/-- The entries of all layers, later ones laid over earlier ones. -/
def merged (layers : List Layer) : Entries :=
  layers.foldl (fun es l => Value.mergeEntries .append es l.entries) []

/-- The source of the value at a path: the last layer that has one. -/
def origin? (layers : List Layer) (path : List String) : Option String :=
  let having := layers.filter fun l => (Value.at? (.dict l.entries) path).isSome
  having.getLast?.bind Layer.origin

/-- Settings read out of the merged layers. -/
def extract {α : Type} (layers : List Layer) (read : Value → Except Mismatch α) :
    Except ConfigError α :=
  (read (.dict (merged layers))).mapError fun m => .unfit m (origin? layers m.path)

end Layer

end Overseer
