import Overseer.Json.Cursor
import Overseer.Number.Binary64
import Overseer.Number.Word

/-!
# Numbers in JSON

A `Numeral` is a number as it is written. Its value is an integer if it has neither a fraction
nor an exponent and fits in 64 bits, and a floating-point number otherwise. A floating-point
value is the significand, of which only the digits that fit in 64 bits count, multiplied or
divided by a power of ten in the arithmetic of the format.
-/

namespace Overseer.Json

/-- A number as it is written. -/
structure Numeral where
  negative : Bool
  whole : List Char
  fraction : List Char := []
  /-- The exponent, zero if none is written. -/
  exponent : Int := 0
  /-- Is there a fraction or an exponent? -/
  fractional : Bool := false
  deriving DecidableEq, Repr

/-- The value of a number. -/
inductive Number where
  | unsigned (n : Nat)
  | signed (n : Int)
  | float (x : Binary64)
  deriving DecidableEq, Repr

/-- How carefully a value is read. A value that is skipped may be nested to any depth, its
numbers may be out of range and its escapes need not be characters. -/
inductive Care where
  | value | skip
  deriving DecidableEq, Repr

namespace Numeral

/-- The digits of an integer part as a significand of 64 bits, and how many were left out. -/
def significand : List Char → Nat × Nat → Nat × Nat
  | [], s => s
  | d :: ds, (n, dropped) =>
    let m := 10 * n + (d.toNat - '0'.toNat)
    if dropped == 0 && m < Word.count 64 then significand ds (m, 0)
    else significand ds (n, dropped + 1)

/-- More digits behind the point: the significand and the number of digits that were taken. -/
def withFraction : List Char → Nat → Nat × Nat
  | [], n => (n, 0)
  | d :: ds, n =>
    let m := 10 * n + (d.toNat - '0'.toNat)
    if m < Word.count 64 then let (k, taken) := withFraction ds m; (k, taken + 1) else (n, 0)

/-- A significand times a power of ten, if the product is in range. -/
def scaled? (negative : Bool) (n : Nat) (exponent : Int) : Option Binary64 :=
  let x := Binary64.ofNat negative n
  let e := exponent.natAbs
  if 0 ≤ exponent then
    if n == 0 then some x
    else if 308 < e then none
    else some (x.timesPower e) |>.filter Binary64.isFinite
  else if e ≤ 308 then some (x.overPower e)
  else if e ≤ 616 then some ((x.overPower 308).overPower (e - 308))
  else some (.zero negative)

/-- The value of a number, if it is in range. -/
def value? (n : Numeral) : Option Number :=
  let (s, dropped) := significand n.whole (0, 0)
  if n.fractional then
    let (s, taken) := withFraction n.fraction s
    (scaled? n.negative s (dropped - taken + n.exponent)).map .float
  else if dropped != 0 then (scaled? n.negative s dropped).map .float
  else if !n.negative then some (.unsigned s)
  else if s == 0 || Word.count 63 < s then some (.float (.ofNat true s))
  else some (.signed (-s))

end Numeral

namespace Read

/-- The end of the text within a number. -/
def endInNumber {α : Type} (care : Care) : Read α :=
  match care with
  | .value => fail .endInValue
  | .skip => fail .badNumber

def digits : Read (List Char) := takeWhile Char.isDigit

/-- The digits behind a point that has been taken. There is at least one. -/
def fraction (care : Care) : Read (List Char) := do
  let ds ← digits
  if ds.isEmpty then
    match ← peek with
    | some _ => failAtNext .badNumber
    | none => endInNumber care
  return ds

/-- The exponent behind an `e` that has been taken. -/
def exponent (care : Care) : Read Int := do
  let sign ← peek
  if sign == some '+' || sign == some '-' then let _ ← next
  match ← peek with
  | none => endInNumber care
  | some d =>
    if !d.isDigit then failAtNext .badNumber
    let n : Int := Binary64.digitsValue (← digits)
    return if sign == some '-' then -n else n

/-- A number. -/
def numeral (care : Care) : Read Numeral := do
  let negative := (← peek) == some '-'
  if negative then let _ ← next
  let whole ← match ← peek with
    | none => endInNumber care
    | some '0' => do
      let _ ← next
      if (← peek).any Char.isDigit then failAtNext .badNumber
      pure ['0']
    | some d =>
      if d.isDigit then digits else failAtNext .badNumber
  let pointed := (← peek) == some '.'
  let fraction ← if pointed then do let _ ← next; fraction care else pure []
  let mark ← peek
  let raised := mark == some 'e' || mark == some 'E'
  let exponent ← if raised then do let _ ← next; exponent care else pure 0
  return { negative, whole, fraction, exponent, fractional := pointed || raised }

end Read

end Overseer.Json
