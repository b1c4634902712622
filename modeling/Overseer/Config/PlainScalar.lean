import Overseer.Config.Value
import Overseer.Text.Digits

/-!
# What plain scalars mean

A plain scalar in YAML is null, a flag, a number or else a text, by the way it looks. Integers
may be written in base 16, 8 or 2. Digits behind a leading zero are no number.
-/

namespace Overseer.PlainScalar

/-- Is a text a row of digits behind a zero, perhaps with a sign? -/
def hasLeadingZero (cs : List Char) : Bool :=
  let ds := match cs with
    | '-' :: ds => ds
    | '+' :: ds => ds
    | ds => ds
  1 < ds.length && ds.head? == some '0' && ds.all Char.isDigit

/-- The magnitude of an integer without a sign. -/
def magnitude? (cs : List Char) : Option Nat :=
  match cs with
  | '0' :: 'x' :: ds => Text.natural? 16 ds
  | '0' :: 'o' :: ds => Text.natural? 8 ds
  | '0' :: 'b' :: ds => Text.natural? 2 ds
  | ds => if hasLeadingZero ds then none else Text.natural? 10 ds

/-- An integer of at most 128 bits. -/
def integer? (cs : List Char) : Option Value :=
  let positive (ds : List Char) :=
    (magnitude? ds).bind fun n => if n < Word.count 128 then some (Value.unsigned n) else none
  match cs with
  | '-' :: ds =>
    (magnitude? ds).bind fun n => if n ≤ Word.count 127 then some (.signed (-n)) else none
  | '+' :: ds => positive ds
  | ds => positive ds

/-- A number with a point or an exponent, or a name of infinity or of no number. -/
def float? (cs : List Char) : Option Binary64 :=
  let s := String.ofList cs
  if [".nan", ".NaN", ".NAN"].contains s then some .nan
  else if ["-.inf", "-.Inf", "-.INF"].contains s then some (.infinite true)
  else
    let (plus, ds) := match cs with
      | '+' :: ds => (true, ds)
      | ds => (false, ds)
    let s := String.ofList ds
    if [".inf", ".Inf", ".INF"].contains s then some (.infinite false)
    else if plus && (ds.head? == some '+' || ds.head? == some '-') then none
    else (Binary64.decimal? s).filter Binary64.isFinite

def bool? (s : String) : Option Bool :=
  if ["true", "True", "TRUE"].contains s then some true
  else if ["false", "False", "FALSE"].contains s then some false
  else none

def isNull (s : String) : Bool := ["~", "null", "Null", "NULL"].contains s

/-- The value of a plain scalar. -/
def value (s : String) : Value :=
  let cs := s.toList
  if s.isEmpty || isNull s then .null
  else
    match bool? s, integer? cs with
    | some b, _ => .bool b
    | none, some v => v
    | none, none =>
      match if hasLeadingZero cs then none else float? cs with
      | some x => .float x
      | none => .string s

end Overseer.PlainScalar
