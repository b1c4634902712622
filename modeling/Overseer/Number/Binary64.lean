/-!
# Binary floating-point numbers of 64 bits

`Binary64` is a number of the format with a significand of 53 bits, as an exact value: a sign, a
significand and a power of two. `Binary64.nearest` rounds a quotient of natural numbers to the
nearest number of the format, a tie to the even significand; everything that makes a number goes
through it. `Binary64.decimal?` reads decimal notation.
-/

namespace Overseer

/-- A number of the format. In a finite number that the functions below make, the significand is
below 2 ^ 53, the exponent is at least -1074, and the significand is at least 2 ^ 52 unless the
exponent is the least one. -/
inductive Binary64 where
  | finite (negative : Bool) (significand : Nat) (exponent : Int)
  | infinite (negative : Bool)
  | nan
  deriving DecidableEq, Repr, Inhabited

namespace Binary64

/-- The least exponent of a finite number. -/
def leastExponent : Int := -1074

/-- The largest exponent of a finite number. -/
def largestExponent : Int := 971

def zero (negative : Bool) : Binary64 := finite negative 0 leastExponent

/-- `num / den` rounded to the nearest natural number, a tie to the even one. -/
def roundDiv (num den : Nat) : Nat :=
  let q := num / den
  let r := num % den
  if den < 2 * r || (2 * r == den && q % 2 == 1) then q + 1 else q

/-- `num / den / 2 ^ e` as a quotient of natural numbers. -/
def scaled (num den : Nat) (e : Int) : Nat × Nat :=
  if 0 ≤ e then (num, den <<< e.toNat) else (num <<< (-e).toNat, den)

/-- The exponent at which a positive quotient has a significand of 53 bits, or the least one. -/
def exponentOf (num den : Nat) : Int :=
  let e : Int := (num.log2 : Int) - den.log2 - 52
  let (n, d) := scaled num den e
  max leastExponent (if n / d < 1 <<< 52 then e - 1 else e)

/-- The number nearest to `num / den`. -/
def nearest (negative : Bool) (num den : Nat) : Binary64 :=
  if num == 0 then zero negative
  else
    let e := exponentOf num den
    let (n, d) := scaled num den e
    let m := roundDiv n d
    let (m, e) := if m == 1 <<< 53 then (1 <<< 52, e + 1) else (m, e)
    if largestExponent < e then infinite negative else finite negative m e

def ofNat (negative : Bool) (n : Nat) : Binary64 := nearest negative n 1

def isFinite : Binary64 → Bool
  | finite .. => true
  | _ => false

def isZero : Binary64 → Bool
  | finite _ m _ => m == 0
  | _ => false

/-- The magnitude of a finite number as a quotient. -/
def ratio (m : Nat) (e : Int) : Nat × Nat :=
  if 0 ≤ e then (m <<< e.toNat, 1) else (m, 1 <<< (-e).toNat)

/-- A finite number times a power of ten that is itself rounded to the format first. -/
def timesPower (x : Binary64) (power : Nat) : Binary64 :=
  match x, ofNat false (Nat.pow 10 power) with
  | finite neg m e, finite _ m' e' =>
    let (n, d) := ratio m e
    let (n', d') := ratio m' e'
    nearest neg (n * n') (d * d')
  | x, _ => x

/-- A finite number divided by a power of ten that is itself rounded to the format first. -/
def overPower (x : Binary64) (power : Nat) : Binary64 :=
  match x, ofNat false (Nat.pow 10 power) with
  | finite neg m e, finite _ m' e' =>
    let (n, d) := ratio m e
    let (n', d') := ratio m' e'
    nearest neg (n * d') (d * n')
  | x, _ => x

/-- The number nearest to `digits * 10 ^ exponent`. Exponents far outside the format are not
computed with: the number of digits decides. -/
def ofDecimal (negative : Bool) (digits : Nat) (exponent : Int) : Binary64 :=
  let places : Int := (Nat.toDigits 10 digits).length
  if digits == 0 then zero negative
  else if 310 < exponent + places then infinite negative
  else if exponent + places < -330 then zero negative
  else if 0 ≤ exponent then nearest negative (digits * Nat.pow 10 exponent.toNat) 1
  else nearest negative digits (Nat.pow 10 (-exponent).toNat)

/-! ## Reading decimal notation -/

/-- The value of decimal digits. -/
def digitsValue (cs : List Char) : Nat := cs.foldl (fun n c => 10 * n + (c.toNat - '0'.toNat)) 0

/-- A sign, if there is one, and the rest. -/
def splitSign : List Char → Bool × List Char
  | '-' :: cs => (true, cs)
  | '+' :: cs => (false, cs)
  | cs => (false, cs)

/-- An exponent: nothing, or `e` with an optional sign and digits up to the end. -/
def exponent? : List Char → Option Int
  | [] => some 0
  | c :: cs =>
    let (negative, ds) := splitSign cs
    if (c == 'e' || c == 'E') && !ds.isEmpty && ds.all Char.isDigit then
      let n : Int := digitsValue ds
      some (if negative then -n else n)
    else none

/-- Digits around a point of which one side may be empty, and an exponent. -/
def plain? (negative : Bool) (cs : List Char) : Option Binary64 :=
  let whole := cs.takeWhile Char.isDigit
  let rest := cs.dropWhile Char.isDigit
  let (fraction, rest) := match rest with
    | '.' :: r => (r.takeWhile Char.isDigit, r.dropWhile Char.isDigit)
    | r => ([], r)
  if whole.isEmpty && fraction.isEmpty then none
  else
    (exponent? rest).map fun e =>
      ofDecimal negative (digitsValue (whole ++ fraction)) (e - fraction.length)

/-- A number in decimal notation, or a name of infinity or of no number in any case. -/
def decimal? (s : String) : Option Binary64 :=
  let (negative, cs) := splitSign s.toList
  let name := String.ofList (cs.map Char.toLower)
  if name == "inf" || name == "infinity" then some (infinite negative)
  else if name == "nan" then some nan
  else plain? negative cs

end Binary64

end Overseer
