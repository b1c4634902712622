import Overseer.Config.JsonText
import Overseer.Config.Decode
import Overseer.Pool.Basic
import Overseer.Pool.Settings

/-!
# The settings of a pool in a configuration

A pool is a record of six fields with defaults, in a section of a configuration or in a JSON text
of its own. A text is read as far as the first thing that is wrong with it, be it the notation or
a value that does not fit.
-/

namespace Overseer.PoolSettings

/-- The names of the fields. -/
def fields : List String :=
  ["capacity", "expiry_ms", "prealloc", "max_blocking_tasks", "nonblocking", "disable_purge"]

/-- Sets a field. -/
def set (field : String) (v : Value) (s : PoolSettings) : Except Mismatch PoolSettings :=
  match field with
  | "capacity" => do return { s with capacity := ← v.readInteger .isize }
  | "expiry_ms" => do return { s with expiryMs := ← v.readInteger .i64 }
  | "prealloc" => do return { s with prealloc := ← v.readBool }
  | "max_blocking_tasks" => do return { s with maxBlocking := ← v.readNatural .usize }
  | "nonblocking" => do return { s with nonblocking := ← v.readBool }
  | "disable_purge" => do return { s with disablePurge := ← v.readBool }
  | _ => .ok s

/-- The settings that a value gives. -/
def ofValue (v : Value) : Except Mismatch PoolSettings :=
  v.readRecord "struct WorkerPoolConfiguration" fields set {}

/-- The pool that the settings describe. -/
def build {υ : Type} (s : PoolSettings) (name : String) (now : Nat) :
    Except PoolError (Pool υ) := do
  Pool.new s.capacity (← s.toOptions name) now

/-! ## JSON texts -/

open Json (Read)

/-- The value of a field, which is a scalar. -/
def readField (field : String) (s : PoolSettings) : Read PoolSettings := do
  let v ← Read.scalarOr fun c =>
    if c == '[' then return .array []
    else if c == '\x7b' then return .dict []
    else Read.failAtNext .noValue
  match set field v s with
  | .ok s => return s
  | .error m => Read.fail (.mismatch m.problem)

/-- A member of an object. The names that have been seen come along. -/
def readMember (name : String) (seen : List String × PoolSettings) :
    Read (List String × PoolSettings) := do
  if fields.contains name then
    if seen.1.contains name then Read.fail (.mismatch ("duplicate field `" ++ name ++ "`"))
    Read.colon
    return (name :: seen.1, ← readField name seen.2)
  else
    Read.colon
    Read.skip
    return seen

/-- An element of an array, as long as there are fields left. -/
def readElement : List String × PoolSettings → Option (Read (List String × PoolSettings))
  | ([], _) => none
  | (f :: fs, s) => some do return (fs, ← readField f s)

/-- A text of its own: an object, or an array with the fields in order. -/
def document : Read PoolSettings := do
  match ← Read.peekPastBlanks with
  | some '\x7b' =>
    let _ ← Read.next
    let r ← Read.members .value readMember (← Read.rounds) true ([], {})
    Read.finish
    return r.2
  | some '[' =>
    let _ ← Read.next
    let r ← Read.elements readElement (← Read.rounds) true (fields, {})
    Read.finish
    return r.2
  | _ => Read.unwantedNext "struct WorkerPoolConfiguration"

/-- The settings that a JSON text gives. -/
def parse (text : String) : Except Json.Error PoolSettings :=
  (document.run ⟨text.toList, {}⟩).map Prod.fst

end Overseer.PoolSettings
