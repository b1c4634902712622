/-!
# Waking parked callers

A `Notifier` holds the callers that wait for a worker, in the order in which they parked.
`one` wakes the longest waiting caller, or stores a single permit if nobody waits; `all` wakes
everybody and stores nothing. A woken caller stays known until it is looked at (`take`); if it
leaves instead (`leave`), a wake that was meant for one caller goes on to the next.
-/

namespace Overseer

/-- A call of `submit` in progress. -/
abbrev CallerId := Nat

/-- How a caller was woken. -/
inductive Wake where
  /-- Alone, in the place of any other caller. -/
  | single
  /-- Together with everybody who waited. -/
  | shared
  deriving DecidableEq, Repr

/-- Callers that wait, callers that were woken and not looked at since, and the permit. -/
structure Notifier where
  waiting : List CallerId := []
  woken : List (CallerId × Wake) := []
  permit : Bool := false
  deriving DecidableEq, Repr

namespace Notifier

/-- Wake the caller that has waited longest, or keep a permit for the next one. -/
def one (n : Notifier) : Notifier × Option CallerId :=
  match n.waiting with
  | [] => ({ n with permit := true }, none)
  | c :: rest => ({ n with waiting := rest, woken := n.woken ++ [(c, .single)] }, some c)

/-- Wake every waiting caller. -/
def all (n : Notifier) : Notifier × List CallerId :=
  ({ n with waiting := [], woken := n.woken ++ n.waiting.map fun c => (c, .shared) }, n.waiting)

/-- Let `c` wait behind the others. A stored permit is used up: it would only make the caller
look again at a state that has not changed. -/
def park (n : Notifier) (c : CallerId) : Notifier :=
  { n with waiting := n.waiting ++ [c], permit := false }

/-- Was `c` woken? -/
def isWoken (n : Notifier) (c : CallerId) : Bool := n.woken.any fun w => w.1 == c

/-- Forget that `c` was woken. -/
def take (n : Notifier) (c : CallerId) : Notifier :=
  { n with woken := n.woken.filter fun w => w.1 != c }

/-- Let `c` go without being looked at. A wake meant for it alone is passed on. -/
def leave (n : Notifier) (c : CallerId) : Notifier × Option CallerId :=
  let gone := { n with
    waiting := n.waiting.filter (· != c), woken := n.woken.filter fun w => w.1 != c }
  if n.woken.any fun w => w.1 == c && w.2 == .single then gone.one else (gone, none)

end Notifier

end Overseer
