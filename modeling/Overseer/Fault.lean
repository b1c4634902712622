/-!
# Faults and panics

A `Fault` is an error of user code: its text and the texts of its causes, from the outside in.
`Fault.within` puts a context around it. `Fault.report` is the long form, with the causes on
lines of their own, numbered when there are two or more.

A `Payload` is what a panic carries. Only a payload that is a text has a message of its own.
-/

namespace Overseer

/-- An error with its causes, the outermost first. -/
structure Fault where
  text : String
  causes : List String := []
  deriving DecidableEq, Repr, Inhabited

namespace Fault

/-- The texts of the error and of its causes, outermost first. -/
def chain (f : Fault) : List String := f.text :: f.causes

/-- The error with a context around it. -/
def within (f : Fault) (context : String) : Fault := ⟨context, f.chain⟩

/-- The chain on one line. -/
def oneLine (f : Fault) : String := ": ".intercalate f.chain

/-- The innermost text. -/
def rootCause (f : Fault) : String := f.causes.getLastD f.text

/-- A text whose lines after the first start with `margin`. -/
def hanging (margin text : String) : String := ("\n" ++ margin).intercalate (text.splitOn "\n")

/-- A number right-aligned in five columns. -/
def rightAligned (n : Nat) : String :=
  let ds := toString n
  String.ofList (List.replicate (5 - ds.length) ' ') ++ ds

/-- A cause on lines of its own, behind its number if it has one. -/
def causeLines (number : Option Nat) (text : String) : String :=
  match number with
  | some n => rightAligned n ++ ": " ++ hanging "       " text
  | none => "    " ++ hanging "    " text

/-- The text of the error and, below it, its causes. -/
def report (f : Fault) : String :=
  match f.causes with
  | [] => f.text
  | [cause] => f.text ++ "\n\nCaused by:\n" ++ causeLines none cause
  | causes =>
    let numbered := causes.zipIdx.map fun c => causeLines (some c.2) c.1
    f.text ++ "\n\nCaused by:\n" ++ "\n".intercalate numbered

end Fault

/-- What a panic carries. -/
inductive Payload where
  /-- A text, constant or composed. -/
  | text (message : String)
  /-- A value of any other type. -/
  | other
  deriving DecidableEq, Repr, Inhabited

namespace Payload

/-- The message that stands for a panic. -/
def message : Payload → String
  | text m => m
  | other => "<non-string panic payload>"

/-- A panic as an error. -/
def toFault (p : Payload) : Fault := ⟨"panicked: " ++ p.message, []⟩

end Payload

/-- How a piece of user code ends. -/
inductive Ending (α : Type) where
  | value (a : α)
  | fault (f : Fault)
  | panic (p : Payload)
  deriving Repr

end Overseer
