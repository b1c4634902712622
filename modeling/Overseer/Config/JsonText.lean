import Overseer.Config.Draft
import Overseer.Json.Reader

/-!
# Values from JSON

A JSON text as configuration: an object whose members may be anything. Of two members of one name
the later counts.
-/

namespace Overseer.Json

/-- A number as a value. -/
def Number.toValue : Number → Value
  | .unsigned n => .unsigned n
  | .signed n => .signed n
  | .float x => .float x

namespace Read

/-- The value of a number. -/
def number : Read Value := do
  match (← numeral .value).value? with
  | some n => return n.toValue
  | none => fail .outOfRange

/-- A scalar. At the start of anything else `other` takes over. -/
def scalarOr (other : Char → Read Value) : Read Value := do
  match ← peekPastBlanks with
  | none => failAtNext .endInValue
  | some 'n' =>
    let _ ← next
    word ['u', 'l', 'l']
    return .null
  | some 't' =>
    let _ ← next
    word ['r', 'u', 'e']
    return .bool true
  | some 'f' =>
    let _ ← next
    word ['a', 'l', 's', 'e']
    return .bool false
  | some '"' =>
    let _ ← next
    .string <$> string .value
  | some c => if c == '-' || c.isDigit then number else other c

/-- The members of an object behind its brace. -/
def entries (read : Read Value) : Read Entries := do
  members .value (fun name es => do colon; return Entries.put name (← read) es) (← rounds) true []

/-- The items of an array behind its bracket. -/
def items (read : Read Value) : Read (List Value) := do
  let reversed ← elements (fun vs => some do return (← read) :: vs) (← rounds) true []
  return reversed.reverse

/-- A value of another kind than was asked for. -/
def unwanted {α : Type} (v : Value) (expected : String) : Read α :=
  fail (.mismatch ("invalid type: " ++ v.described "null" ++ ", expected " ++ expected))

/-- A value of another kind that comes next. A collection is not entered. -/
def unwantedNext {α : Type} (expected : String) : Read α := do
  let v ← scalarOr fun c =>
    if c == '[' then return .array []
    else if c == '\x7b' then return .dict []
    else failAtNext .noValue
  unwanted v expected

/-- Goes past the opening character of a collection that is not wanted, and past what it ends
with if nothing is in it. -/
def leave (opening : Char) : Read Value := do
  let _ ← next
  match opening, ← peekPastBlanks with
  | '[', some ']' =>
    let _ ← next
    return .array []
  | '[', some ',' =>
    let _ ← next
    let _ ← peekPastBlanks
    return .array []
  | '[', _ => return .array []
  | _, some '\x7d' =>
    let _ ← next
    return .dict []
  | _, _ => return .dict []

/-- A number that identifies a value. The depth is that of the collections that may follow. -/
def identity (depth : Nat) : Read Unit := do
  let v ← scalarOr fun c =>
    if c == '[' || c == '\x7b' then
      if depth == 0 then failAtNext .tooDeep else leave c
    else failAtNext .noValue
  match v with
  | .unsigned _ => return ()
  | v => unwanted v Draft.identityKind

/-- A value whose collections are nested no deeper than a number says. -/
def value : Nat → Read Value
  | 0 => scalarOr fun c => if c == '[' || c == '\x7b' then failAtNext .tooDeep
      else failAtNext .noValue
  | depth + 1 => scalarOr fun c => do
    if c == '[' then
      let _ ← next
      .array <$> items (value depth)
    else if c == '\x7b' then
      let _ ← next
      let read (name : String) (d : Draft) : Read Draft := do
        colon
        d.read (identity depth) (value depth) name
      Draft.finish <$> do members .value read (← rounds) true {}
    else failAtNext .noValue

/-- A whole text that is an object. -/
def document : Read Entries := do
  if (← peekPastBlanks) == some '\x7b' then
    let _ ← next
    let es ← entries (value (depthLimit - 1))
    finish
    return es
  else unwantedNext "a map"

end Read

/-- The entries that a text gives. -/
def parseEntries (text : String) : Except Error Entries :=
  (Read.document.run ⟨text.toList, {}⟩).map Prod.fst

end Overseer.Json
