/-!
# Locks

A lock that is handed over: whoever waits longest holds it as soon as it is released, whether it
has been polled or not.
-/

namespace Overseer

/-- A call on a supervised set that is in progress. -/
abbrev CallId := Nat

/-- Who holds a lock, and who waits for it, longest first. -/
structure Lock where
  holder : Option CallId := none
  queue : List CallId := []
  deriving DecidableEq, Repr

namespace Lock

def isHeldBy (l : Lock) (c : CallId) : Bool := l.holder == some c

/-- Take a free lock, or wait. -/
def acquire (l : Lock) (c : CallId) : Lock :=
  match l.holder with
  | none => { l with holder := some c }
  | some _ => { l with queue := l.queue ++ [c] }

/-- Let `c` go, whether it holds the lock or waits for it. The result names the call that holds
the lock now because of that. -/
def leave (l : Lock) (c : CallId) : Lock × Option CallId :=
  if l.isHeldBy c then
    match l.queue with
    | [] => ({ l with holder := none }, none)
    | d :: rest => ({ holder := some d, queue := rest }, some d)
  else ({ l with queue := l.queue.filter (· != c) }, none)

end Lock

end Overseer
