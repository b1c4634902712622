import Overseer.Config.Value

/-!
# Reading settings out of values

Readers of the kinds of settings: texts, flags, integers of a width, lists and records. A record
is read from a dictionary, whose entries are visited in order of their keys, or from an array,
whose items are the fields in order; names that are not fields are passed over. The first field
that does not fit is reported, together with the path that leads to it.
-/

namespace Overseer

/-- Why a value cannot be read as what was asked for. -/
inductive Mismatch where
  /-- The value is of another kind. -/
  | kind (path : List String) (expected found : String)
  /-- The value is an integer, and too large or too small. -/
  | range (path : List String) (expected found : String)
  /-- The value names none of the known variants. -/
  | variant (path : List String) (found : String) (known : List String)
  /-- A field without a default is missing. -/
  | missing (field : String)
  /-- The value is an integer that JSON has no number for. -/
  | wide (path : List String)
  deriving DecidableEq, Repr

namespace Mismatch

/-- The mismatch as it is seen from one level further out. -/
def under (key : String) : Mismatch → Mismatch
  | kind path expected found => kind (key :: path) expected found
  | range path expected found => range (key :: path) expected found
  | variant path found known => variant (key :: path) found known
  | missing field => missing field
  | wide path => wide (key :: path)

def path : Mismatch → List String
  | kind path _ _ => path
  | range path _ _ => path
  | variant path _ _ => path
  | missing _ => []
  | wide path => path

/-- Two names, each between backquotes. -/
def oneOf : List String → String
  | [] => "none"
  | [a] => "`" ++ a ++ "`"
  | [a, b] => "`" ++ a ++ "` or `" ++ b ++ "`"
  | names => "one of " ++ ", ".intercalate (names.map fun n => "`" ++ n ++ "`")

/-- What is wrong, without the field. -/
def problem : Mismatch → String
  | kind _ expected found => "invalid type: found " ++ found ++ ", expected " ++ expected
  | range _ expected found => "invalid value " ++ found ++ ", expected " ++ expected
  | variant _ found known =>
    "unknown variant: found `" ++ found ++ "`, expected `" ++ oneOf known ++ "`"
  | missing field => "missing field `" ++ field ++ "`"
  | wide _ => "JSON number out of range"

end Mismatch

/-- The integers of a width. -/
structure IntegerKind where
  name : String
  isOne : Int → Bool

namespace IntegerKind

def u8 : IntegerKind := ⟨"u8", Word.isUnsigned 8⟩

def u64 : IntegerKind := ⟨"u64", Word.isUnsigned 64⟩

def i64 : IntegerKind := ⟨"i64", Word.isSigned 63⟩

/-- Sizes; a word has 64 bits. -/
def usize : IntegerKind := ⟨"usize", Word.isUnsigned 64⟩

/-- Signed sizes. -/
def isize : IntegerKind := ⟨"isize", Word.isSigned 63⟩

end IntegerKind

namespace Value

/-- The value is not of the kind that was asked for. -/
def mismatch {α : Type} (expected : String) (v : Value) : Except Mismatch α :=
  .error (.kind [] expected v.found)

def readString : Value → Except Mismatch String
  | char c => .ok (String.singleton c)
  | string s => .ok s
  | v => v.mismatch "a string"

def readBool : Value → Except Mismatch Bool
  | bool b => .ok b
  | v => v.mismatch "a boolean"

/-- An integer of at most 64 bits. -/
def integer? : Value → Option Int
  | unsigned n => if n < Word.count 64 then some n else none
  | signed n => if -(Word.count 63 : Int) ≤ n then some n else none
  | _ => none

/-- An integer of a given width. Nothing else is turned into one. -/
def readInteger (k : IntegerKind) (v : Value) : Except Mismatch Int :=
  match v.integer? with
  | none => v.mismatch k.name
  | some n =>
    if k.isOne n then .ok n else .error (.range [] k.name v.found)

def readNatural (k : IntegerKind) (v : Value) : Except Mismatch Nat :=
  return (← v.readInteger k).toNat

/-- Reads what is at a key. -/
def within {α : Type} (key : String) (r : Except Mismatch α) : Except Mismatch α :=
  r.mapError (Mismatch.under key)

def readList {α : Type} (read : Value → Except Mismatch α) : Value → Except Mismatch (List α)
  | array items => items.zipIdx.mapM fun i => within (toString i.2) (read i.1)
  | v => v.mismatch "a sequence"

/-- Reads a record. `set` puts the value of a field into what has been read so far. -/
def readRecord {σ : Type} (expected : String) (fields : List String)
    (set : String → Value → σ → Except Mismatch σ) (start : σ) : Value → Except Mismatch σ
  | dict es =>
    es.foldlM (fun s e => if fields.contains e.1 then within e.1 (set e.1 e.2 s) else .ok s) start
  | array items =>
    (fields.zip items).zipIdx.foldlM
      (fun s f => within (toString f.2) (set f.1.1 f.1.2 s)) start
  | v => v.mismatch expected

/-! ## Values as they are -/

mutual

/-- Checks that no integer in a value needs more than 64 bits. -/
def checkWidth : Value → Except Mismatch Unit
  | array items => checkItems 0 items
  | dict es => checkEntries es
  | v => if v.wide?.isSome then .error (.wide []) else .ok ()

def checkItems (i : Nat) : List Value → Except Mismatch Unit
  | [] => .ok ()
  | v :: vs => do
    within (toString i) (checkWidth v)
    checkItems (i + 1) vs

def checkEntries : List (String × Value) → Except Mismatch Unit
  | [] => .ok ()
  | (k, v) :: es => do
    within k (checkWidth v)
    checkEntries es

end

/-- Any value that JSON can write. -/
def readAny (v : Value) : Except Mismatch Value := do
  checkWidth v
  return v

end Value

end Overseer
