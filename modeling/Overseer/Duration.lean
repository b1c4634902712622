import Overseer.Number.Word

/-!
# Durations

A span of time in whole nanoseconds. `Duration.shown` writes the largest of the units s, ms, µs
and ns that the span fills once, followed by the exact decimal fraction without trailing zeros.
-/

namespace Overseer

/-- A span of time, counted in nanoseconds. -/
structure Duration where
  nanos : Nat
  deriving DecidableEq, Repr, Inhabited

namespace Duration

def ofMillis (n : Nat) : Duration := ⟨n * 1000000⟩

def ofSecs (n : Nat) : Duration := ⟨n * 1000000000⟩

/-- The longest span that can be written: all of 64 bits of seconds and a nanosecond short of
one more. -/
def longest : Duration := ⟨Word.count 64 * 1000000000 - 1⟩

def isZero (d : Duration) : Bool := d.nanos == 0

/-- Whole milliseconds, the rest dropped. -/
def millis (d : Duration) : Nat := d.nanos / 1000000

/-- The first whole millisecond at which the span is over. -/
def ceilMillis (d : Duration) : Nat := (d.nanos + 999999) / 1000000

/-- The digits of `n` padded with zeros in front to `width`. -/
def padded (width n : Nat) : List Char :=
  let ds := Nat.toDigits 10 n
  List.replicate (width - ds.length) '0' ++ ds

/-- `n` units with `places` decimal digits below the unit, no trailing zeros. -/
def decimal (places n : Nat) : String :=
  let unit := Nat.pow 10 places
  let fraction := ((padded places (n % unit)).reverse.dropWhile (· == '0')).reverse
  toString (n / unit) ++
    if fraction.isEmpty || places == 0 then "" else "." ++ String.ofList fraction

/-- The text of a span: `1.5ms`, `20ms`, `1s`, `1µs`, `0ns`. -/
def shown (d : Duration) : String :=
  if 1000000000 ≤ d.nanos then decimal 9 d.nanos ++ "s"
  else if 1000000 ≤ d.nanos then decimal 6 d.nanos ++ "ms"
  else if 1000 ≤ d.nanos then decimal 3 d.nanos ++ "µs"
  else decimal 0 d.nanos ++ "ns"

end Duration

end Overseer
