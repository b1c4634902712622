/-!
# Digits

Natural numbers that are written with digits in a base of up to 16. Letters stand for the digits
from ten on, whatever their case.
-/

namespace Overseer.Text

/-- The value of a digit. -/
def digit? (base : Nat) (c : Char) : Option Nat :=
  let n :=
    if c.isDigit then c.toNat - '0'.toNat
    else if 'a' ≤ c && c ≤ 'f' then c.toNat - 'a'.toNat + 10
    else if 'A' ≤ c && c ≤ 'F' then c.toNat - 'A'.toNat + 10
    else base
  if n < base then some n else none

/-- The value of digits, of which there must be at least one. -/
def natural? (base : Nat) (cs : List Char) : Option Nat :=
  if cs.isEmpty then none
  else (cs.mapM (digit? base)).map fun ds => ds.foldl (fun n d => base * n + d) 0

theorem lt_of_digit?_eq_some {base : Nat} {c : Char} {n : Nat} (h : digit? base c = some n) :
    n < base := by
  obtain ⟨hlt, hn⟩ := Option.ite_none_right_eq_some.mp h
  exact Option.some.inj hn ▸ hlt

end Overseer.Text
