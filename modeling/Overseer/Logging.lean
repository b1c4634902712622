import Overseer.Fault
import Overseer.Logging.Directive
import Overseer.Text.Json

/-!
# Logging

Which records are printed, and in which form. Both are taken from the environment once, when the
program starts: `LogSetup.install` refuses to do it a second time.

A filter is a list of directives. Of all directives that apply to a record the one with the
longest target decides, and of equal ones the last.
-/

namespace Overseer

/-- Which records are printed. -/
structure LogFilter where
  directives : List Directive
  deriving DecidableEq, Repr

namespace LogFilter

/-- The filter of a text with rules between commas. Rules that cannot be read are left out, and
if none is left the default decides alone. -/
def ofText (default : LevelLimit) (text : String) : LogFilter :=
  match (text.splitOn ",").filterMap fun rule => Directive.parse? rule.toList with
  | [] => ⟨[{ limit := default }]⟩
  | ds => ⟨ds⟩

/-- The rule that decides about a record. -/
def deciding? (f : LogFilter) (r : Record) : Option Directive :=
  (f.directives.filter fun d => d.applies r).foldl
    (fun best d => if best.all d.overrides then some d else best) none

/-- Is a record printed? -/
def admits (f : LogFilter) (r : Record) : Bool :=
  (f.deciding? r).any fun d => d.limit.admits r.level

end LogFilter

/-- How records are printed. -/
structure LogSetup where
  filter : LogFilter
  /-- One JSON object a line, instead of text. -/
  json : Bool
  deriving DecidableEq, Repr

namespace LogSetup

/-- The variable with the rules of the filter. -/
def levelVariable : String := "TETHER_LOG_LEVEL"

/-- The variable that asks for JSON. -/
def jsonVariable : String := "TETHER_LOG_FORMAT_JSON"

/-- Does a text say yes? -/
def isTruthy (text : String) : Bool :=
  let word := String.ofList ((Text.trim text.toList).map Char.toLower)
  word == "true" || word == "1"

def lookup? (environment : List (String × String)) (name : String) : Option String :=
  (environment.find? (·.1 == name)).map (·.2)

/-- The setup that the environment asks for. -/
def ofVariables (default : LevelLimit) (environment : List (String × String)) : LogSetup where
  filter := .ofText default ((lookup? environment levelVariable).getD "")
  json := (lookup? environment jsonVariable).any isTruthy

/-- Sets logging up, unless that has been done before. -/
def install (current : Option LogSetup) (default : Option LevelLimit)
    (environment : List (String × String)) : Except Fault LogSetup :=
  match current with
  | some _ =>
    .error ((Fault.mk "a global default trace dispatcher has already been set" []).within
      "Failed to initialize logging subsystem.")
  | none => .ok (ofVariables (default.getD (some .info)) environment)

/-- The value of a field as JSON. -/
def fieldJson : Field → String
  | .text s => Text.jsonQuoted s
  | .number n => toString n

/-- A record as a JSON object, with its fields beside the level, the message and the target. -/
def recordJson (r : Record) : String :=
  let own : List (String × Field) :=
    [("level", .text r.level.name), ("message", .text r.message), ("target", .text r.target)]
  let members := (own ++ r.fields).map fun f => Text.jsonQuoted f.1 ++ ":" ++ fieldJson f.2
  "\x7b" ++ ",".intercalate members ++ "\x7d"

/-- A record as it is printed. -/
def line (s : LogSetup) (r : Record) : String := if s.json then recordJson r else r.line

end LogSetup

end Overseer
