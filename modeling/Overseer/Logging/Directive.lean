import Overseer.Logging.Pattern
import Overseer.Number.Binary64
import Overseer.Record

/-!
# Directives

A directive lets log records pass up to a level: all of them, those of the parts of the program
whose names begin with its target, those that have a field, or those within a span. It is written
`target[span\x7bfield=value\x7d]=level`, and everything but one of the parts may be left out.

`Directive.parse?` reads the text without white space at its ends from character to character, but
cuts the parts out of the whole text at the same places. So white space in front of a directive
is a part of its target, and moves all that follows.
-/

namespace Overseer

/-- The most verbose level that passes, or none if nothing does. -/
abbrev LevelLimit := Option Level

namespace LevelLimit

/-- Does a level pass? -/
def admits (limit : LevelLimit) (level : Level) : Bool :=
  limit.any fun l => level.verbosity ≤ l.verbosity

/-- The limits in order, at the places of the numbers that stand for them. -/
def numbered : List LevelLimit :=
  [none, some .error, some .warn, some .info, some .debug, some .trace]

/-- The limit that a name in any case or a number stands for. -/
def ofName? (name : List Char) : Option LevelLimit :=
  let digits := if name.head? == some '+' then name.tail else name
  match Text.natural? 10 digits with
  | some n => numbered[n]?
  | none =>
    match String.ofList (name.map Char.toLower) with
    | "off" => some none
    | "error" => some (some .error)
    | "warn" => some (some .warn)
    | "info" => some (some .info)
    | "debug" => some (some .debug)
    | "trace" => some (some .trace)
    | _ => none

end LevelLimit

/-- What a directive asks of a field: that there is one of a name, perhaps with a value. -/
structure FieldCondition where
  name : String
  /-- Does it ask for a value? -/
  valued : Bool := false
  deriving DecidableEq, Repr

namespace FieldCondition

/-- A value is a number or a pattern. -/
def isValue (text : List Char) : Bool :=
  (Binary64.decimal? (String.ofList text)).isSome || Pattern.isWellFormed text

/-- The condition that a name spells, perhaps with a value behind an equals sign. What follows a
second sign means nothing. -/
def parse? (text : List Char) : Option FieldCondition :=
  let isName (c : Char) := c != '='
  let name := String.ofList (text.takeWhile isName)
  match text.dropWhile isName with
  | [] => if text.isEmpty then none else some { name }
  | _ :: rest => if isValue (rest.takeWhile isName) then some { name, valued := true } else none

end FieldCondition

/-- One rule of a filter. -/
structure Directive where
  /-- What the names of the parts of the program begin with. -/
  target : String := ""
  /-- The span around the records. -/
  span : Option String := none
  field : Option FieldCondition := none
  limit : LevelLimit := some .trace
  deriving DecidableEq, Repr

namespace Directive

/-! ## Reading -/

/-- Where a reader is in a directive, with the place at which the current part starts. -/
inductive Place where
  | start
  /-- In a target, or in a level that stands alone. -/
  | target
  | span (since : Nat)
  | field (since : Nat)
  | behindField
  | behindSpan
  | level (since : Nat)
  deriving DecidableEq, Repr

/-- What follows a number of bytes, which must not end within a character. -/
def beyond? : Nat → List Char → Option (List Char)
  | 0, cs => some cs
  | _ + 1, [] => none
  | n + 1, c :: cs => if c.utf8Size ≤ n + 1 then beyond? (n + 1 - c.utf8Size) cs else none

/-- The characters of a text before a number of bytes, which must not end within one of them. -/
def before? (bytes : Nat) (text : List Char) : Option (List Char) :=
  (beyond? bytes text).map fun rest => text.take (text.length - rest.length)

/-- The characters of a text between two places, counted in bytes. -/
def cut? (text : List Char) (since stop : Nat) : Option (List Char) :=
  (beyond? since text).bind (before? (stop - since))

/-- Does a directive start with a character, unless with a bracket? -/
def isStart (c : Char) : Bool := Text.isAlphanumeric c || ['-', ':', '_'].contains c

/-- The next place in a directive, after a character at the place `i` of `text`. -/
def next? (text : List Char) (i : Nat) (c : Char) (p : Place) (d : Directive) :
    Option (Place × Directive) :=
  let part (since : Nat) := (cut? text since i).map String.ofList
  match p, c with
  | .start, '[' => some (.span (i + 1), d)
  | .start, c => if isStart c then some (.target, d) else none
  | .target, '=' => (part 0).map fun target => (.level (i + 1), { d with target })
  | .target, '[' => (part 0).map fun target => (.span (i + 1), { d with target })
  | .span since, ']' => (part since).map fun span => (.behindSpan, { d with span })
  | .span since, '\x7b' =>
    (part since).map fun span =>
      (.field (i + 1), if span.isEmpty then d else { d with span })
  | .field since, '\x7d' => do
    let field ← FieldCondition.parse? (← cut? text since i)
    return (.behindField, { d with field })
  | .behindField, ']' => some (.behindSpan, d)
  | .behindField, _ => none
  | .behindSpan, '=' => some (.level (i + 1), d)
  | .behindSpan, _ => none
  | p, _ => some (p, d)

/-- The directive at the end of a text. A name alone is a level if it can be one. -/
def finish? (text : List Char) (p : Place) (d : Directive) : Option Directive :=
  match p with
  | .target =>
    match LevelLimit.ofName? text with
    | some limit => some { d with limit }
    | none => some { d with target := String.ofList text }
  | .level since =>
    (beyond? since text).bind fun name =>
      if name.isEmpty then some d
      else (LevelLimit.ofName? name).map fun limit => { d with limit }
  | .behindSpan => some d
  | _ => none

/-- Reads the rest of a directive from the place `i` of `text` on. -/
def read? (text : List Char) (i : Nat) (p : Place) (d : Directive) : List Char → Option Directive
  | [] => finish? text p d
  | c :: cs => (next? text i c p d).bind fun r => read? text (i + c.utf8Size) r.1 r.2 cs

/-- The directive that a text spells. -/
def parse? (text : List Char) : Option Directive := read? text 0 .start {} (Text.trim text)

/-! ## Meaning -/

/-- Can it be told from a record alone whether a directive applies? -/
def isStatic (d : Directive) : Bool := d.span.isNone && d.field.all fun f => !f.valued

/-- Does a directive apply to a record? Those about spans or values do not, since no record here
is within a span. The message of a record is one of its fields. -/
def applies (d : Directive) (r : Record) : Bool :=
  d.isStatic && d.target.toList.isPrefixOf r.target.toList &&
    d.field.all fun f => ("message" :: r.fields.map (·.1)).contains f.name

/-- The name of the field that a directive asks for, or nothing. -/
def fieldName (d : Directive) : String := d.field.elim "" (·.name)

/-- Does a directive decide rather than one that is written before it? The longer target does, and
of targets of one length the greater name of a field. -/
def overrides (d earlier : Directive) : Bool :=
  earlier.target.length < d.target.length ||
    (earlier.target.length == d.target.length && earlier.fieldName ≤ d.fieldName)

theorem not_applies_of_span {d : Directive} (h : d.span.isSome = true) (r : Record) :
    d.applies r = false := by
  simp [applies, isStatic, Option.isNone_eq_false_iff.mpr h]

end Directive

end Overseer
