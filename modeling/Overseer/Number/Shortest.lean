import Overseer.Number.Binary64

/-!
# The fewest digits

`Binary64.shortest` gives a decimal number of as few digits as possible among those that are read
back as the given one, and of these the nearest. The numbers that are read back are those of an
interval around the value, which contains its ends if the significand is even. Of the multiples
of a power of ten, only the two neighbours of the value need to be tried.

`Binary64.positional` writes the digits around a point, without an exponent.
-/

namespace Overseer.Binary64

/-- A decimal number: `digits * 10 ^ exponent`. -/
structure Decimal where
  digits : Nat
  exponent : Int
  deriving DecidableEq, Repr

/-- The interval that is rounded to a finite number, in quarters of its last place. -/
structure Interval where
  low : Nat
  value : Nat
  high : Nat
  closed : Bool

def Interval.of (m : Nat) (e : Int) : Interval :=
  { low := if m == 1 <<< 52 && leastExponent < e then 4 * m - 1 else 4 * m - 2
    value := 4 * m
    high := 4 * m + 2
    closed := m % 2 == 0 }

/-- Is `n` in the interval, all its numbers multiplied by `k`? -/
def Interval.contains (i : Interval) (k n : Nat) : Bool :=
  if i.closed then i.low * k ≤ n && n ≤ i.high * k else i.low * k < n && n < i.high * k

/-- The multiple of `10 ^ p` nearest to the value, if one lies in the interval. The numbers of
the interval count quarters of `2 ^ e`, and one of them is `a / b` steps of the grid. -/
def Interval.onGrid? (i : Interval) (e p : Int) : Option Nat :=
  let a := Nat.pow 10 (-p).toNat <<< (e - 2).toNat
  let b := Nat.pow 10 p.toNat <<< (2 - e).toNat
  let below := i.value * a / b
  let near :=
    if 2 * (i.value * a % b) ≤ b then [below, below + 1] else [below + 1, below]
  near.find? fun n => i.contains a (n * b)

/-- A lower bound of the decimal exponent of a positive finite number, at most a few too low. -/
def decimalExponent (m : Nat) (e : Int) : Int := ((m.log2 : Int) + e) * 30103 / 100000

/-- The number of fewest digits that is read back as a finite number. -/
def shortest (m : Nat) (e : Int) : Decimal :=
  if m == 0 then ⟨0, 0⟩
  else
    let i := Interval.of m e
    let top := decimalExponent m e + 2
    let found := (List.range 24).findSome? fun (k : Nat) =>
      let p := top - (k : Int)
      (i.onGrid? e p).map fun n => Decimal.mk n p
    found.getD ⟨0, 0⟩

/-- Digits around a point, without an exponent and without a fraction of zero. -/
def Decimal.positional (d : Decimal) : String :=
  let ds := Nat.toDigits 10 d.digits
  if 0 ≤ d.exponent then
    String.ofList (if d.digits == 0 then ds else ds ++ List.replicate d.exponent.toNat '0')
  else
    let places := (-d.exponent).toNat
    let ds := List.replicate (places + 1 - ds.length) '0' ++ ds
    let whole := ds.take (ds.length - places)
    String.ofList (whole ++ '.' :: ds.drop (ds.length - places))

/-- The text of a number. -/
def positional : Binary64 → String
  | finite negative m e => (if negative then "-" else "") ++ (shortest m e).positional
  | infinite negative => if negative then "-inf" else "inf"
  | nan => "NaN"

end Overseer.Binary64
