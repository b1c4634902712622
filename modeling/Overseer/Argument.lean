import Overseer.Duration
import Overseer.Text.Json

/-!
# Task arguments

What a task is given when it is initialized: a list of values of several kinds. A value is found
by its position and its kind together, so a number of one width is never found as another.
-/

namespace Overseer

/-- A value that a task can be given. -/
inductive Argument where
  | u32 (n : Nat)
  | u64 (n : Nat)
  | i64 (n : Int)
  | bool (b : Bool)
  | string (s : String)
  | duration (d : Duration)
  | unit
  deriving DecidableEq, Repr

/-- The kind of a value. -/
inductive ArgumentKind where
  | u32 | u64 | i64 | bool | string | duration | unit
  deriving DecidableEq, Repr

namespace Argument

def kind : Argument → ArgumentKind
  | u32 _ => .u32
  | u64 _ => .u64
  | i64 _ => .i64
  | bool _ => .bool
  | string _ => .string
  | duration _ => .duration
  | unit => .unit

/-- The value at `index`, if there is one and it is of kind `k`. -/
def find? (args : List Argument) (index : Nat) (k : ArgumentKind) : Option Argument :=
  args[index]?.filter fun a => a.kind == k

/-- A value as JSON. A span of time is its number of milliseconds. -/
def json : Argument → String
  | u32 n => toString n
  | u64 n => toString n
  | i64 n => toString n
  | bool b => Text.flag b
  | string s => Text.jsonQuoted s
  | duration d => toString d.millis
  | unit => Text.jsonQuoted "unit"

/-- The text that stands for a list of arguments. -/
def shownList (args : List Argument) : String :=
  "TaskArgs \x7b len: " ++ toString args.length ++ " \x7d"

end Argument

end Overseer
