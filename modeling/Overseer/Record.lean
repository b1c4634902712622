/-!
# Log records

A record has a level, the part of the program it comes from, a message and named fields.
`Record.line` is its text: level, message, then the fields in order.
-/

namespace Overseer

/-- The severity of a record, the gravest first. -/
inductive Level where
  | error | warn | info | debug | trace
  deriving DecidableEq, Repr, Inhabited

namespace Level

def name : Level → String
  | error => "ERROR"
  | warn => "WARN"
  | info => "INFO"
  | debug => "DEBUG"
  | trace => "TRACE"

/-- The number of levels that are at least as grave. -/
def verbosity : Level → Nat
  | error => 1
  | warn => 2
  | info => 3
  | debug => 4
  | trace => 5

end Level

/-- The value of a field. -/
inductive Field where
  | text (s : String)
  | number (n : Int)
  deriving DecidableEq, Repr

namespace Field

def shown : Field → String
  | text s => s
  | number n => toString n

end Field

/-- One log record. -/
structure Record where
  level : Level
  target : String
  message : String
  fields : List (String × Field) := []
  deriving DecidableEq, Repr

namespace Record

/-- The record on one line. -/
def line (r : Record) : String :=
  " ".intercalate
    (r.level.name :: r.message :: r.fields.map fun f => f.1 ++ "=" ++ f.2.shown)

end Record

end Overseer
