import Overseer.Config.Draft
import Overseer.Config.PlainScalar
import Overseer.Yaml.Node
import Overseer.Yaml.Path

/-!
# Values from YAML

A YAML text as configuration: one document that is a mapping, or no document at all. Keys are
texts as they are written; of two entries of one key the later counts. A tag of the core schema
asks for a kind of scalar, and a tag of the document's own puts the value below the path that its
name spells. References may not be followed too often, and collections may not be nested too
deeply.
-/

namespace Overseer.Yaml

/-- How deeply collections may be nested. -/
def depthLimit : Nat := 128

/-- A reader of a tree. It counts the references that it has followed. -/
abbrev Visit (α : Type) := StateT Nat (Except Error) α

namespace Visit

variable (t : Tree)

/-- An error about a node. -/
def fail {α : Type} (path : Path) (mark : Mark) (problem : String) : Visit α :=
  throw { problem := path.inFront problem, mark }

/-- What is wrong where the tree breaks off. -/
def broken {α : Type} : Visit α :=
  throw (t.fault.getD { problem := "EOF while parsing a value" })

/-- The node that a node stands for. -/
def follow (n : Node) : Visit Node := do
  if n.isReference then
    modify (· + 1)
    if t.size * 100 < (← get) then throw { problem := "repetition limit exceeded" }
  return t.resolve n

/-- A scalar that has to be of a kind. -/
def tagged (path : Path) (mark : Mark) (text expected : String) (v : Option Value) :
    Visit Value :=
  match v with
  | some v => return v
  | none =>
    fail path mark ("invalid value: string " ++ Text.quoted text ++ ", expected " ++ expected)

/-- The value of a scalar, whatever name the document gives it. -/
def scalar (path : Path) (mark : Mark) (tag : Option Tag) (text : String) (style : Style) :
    Visit Value :=
  if tag == some (.core "bool") then
    tagged path mark text "a boolean" ((PlainScalar.bool? text).map .bool)
  else if tag == some (.core "int") then
    tagged path mark text "an integer" (PlainScalar.integer? text.toList)
  else if tag == some (.core "float") then
    tagged path mark text "a float" ((PlainScalar.float? text.toList).map .float)
  else if tag == some (.core "null") then
    tagged path mark text "null" (if PlainScalar.isNull text then some .null else none)
  else if tag.all Tag.isLocal && style == .plain then return PlainScalar.value text
  else return .string text

/-- A node of another kind than was asked for. -/
def unwanted {α : Type} (path : Path) (mark : Mark) (found expected : String) : Visit α :=
  fail path mark ("invalid type: " ++ found ++ ", expected " ++ expected)

/-- The text of a key. -/
def key (path : Path) (n : Node) : Visit String := do
  match ← follow t n with
  | .scalar _ _ text _ => return text
  | .sequence mark _ _ => unwanted path mark "sequence" "a string"
  | .mapping mark _ _ => unwanted path mark "map" "a string"
  | _ => broken t

/-- The path to the value of a key. -/
def behind (path : Path) (key : Node) (text : String) : Path :=
  if key.isReference then .unnamed path else .entry path text

/-- Goes through the parts of a mapping. `step` is given the text of a key, the path to its value
and the value. -/
def parts {σ : Type} (step : String → Path → Node → σ → Visit σ) (path : Path) :
    List Node → σ → Visit σ
  | [], s => return s
  | k :: rest, s => do
    let text ← key t path k
    match rest with
    | [] => broken t
    | v :: rest => parts step path rest (← step text (behind path k text) v s)

def tooDeep {α : Type} (mark : Mark) : Visit α :=
  throw { problem := "recursion limit exceeded", mark }

/-- A number that identifies a value. The depth is that of the collections that may follow. -/
def identity (depth : Nat) (path : Path) (n : Node) : Visit Unit := do
  let n ← follow t n
  let collection (mark : Mark) (found : String) : Visit Unit :=
    if n.ownName?.isSome then unwanted path mark "enum" Draft.identityKind
    else if depth == 0 then tooDeep mark
    else unwanted path mark found Draft.identityKind
  match n with
  | .sequence mark _ _ => collection mark "sequence"
  | .mapping mark _ _ => collection mark "map"
  | .scalar mark tag text style =>
    if n.ownName?.isSome then unwanted path mark "enum" Draft.identityKind
    match ← scalar path mark tag text style with
    | .unsigned k =>
      if Word.count 64 ≤ k then
        unwanted path mark ((Value.unsigned k).described "") Draft.identityKind
    | v => unwanted path mark (v.described "unit value") Draft.identityKind
  | _ => broken t

/-- The value of a node whose collections are nested no deeper than a number says. -/
def value : Nat → Path → Node → Visit Value
  | 0, path, n => do
    let n ← follow t n
    let v ← match n with
      | .scalar mark tag text style => scalar path mark tag text style
      | .sequence mark _ _ => tooDeep mark
      | .mapping mark _ _ => tooDeep mark
      | _ => broken t
    return n.ownName?.elim v (Value.named · v)
  | depth + 1, path, n => do
    let n ← follow t n
    let v ← match n with
      | .scalar mark tag text style => scalar path mark tag text style
      | .sequence _ _ items =>
        .array <$> items.zipIdx.mapM fun i => value depth (.item path i.2) i.1
      | .mapping _ _ ps =>
        let read (key : String) (path : Path) (n : Node) (d : Draft) : Visit Draft :=
          d.read (identity t depth path n) (value depth path n) key
        Draft.finish <$> parts t read path ps {}
      | _ => broken t
    return n.ownName?.elim v (Value.named · v)

/-- The entries of a whole document. -/
def document (n : Node) : Visit Entries := do
  match ← follow t n with
  | .mapping _ _ ps =>
    parts t (fun key path n es => do
      return Entries.put key (← value t (depthLimit - 1) path n) es) .root ps []
  | .sequence mark _ _ => unwanted .root mark "sequence" "a map"
  | .scalar mark tag text style =>
    if text.isEmpty && style == .plain then return []
    unwanted .root mark ((← scalar .root mark tag text style).described "unit value") "a map"
  | _ => broken t

end Visit

/-- The entries that a text gives. -/
def parseEntries (text : String) : Except Error Entries := do
  let d := Document.ofText text
  let t := Tree.ofDocument d
  let es ← match t.root, t.fault with
    | none, none => pure []
    | none, some e => throw e
    | some n, _ => (Visit.document t n).run' 0
  if let some e := t.fault then throw e
  if d.more then
    throw {
      problem := "deserializing from YAML containing more than one document is not supported" }
  return es

end Overseer.Yaml
