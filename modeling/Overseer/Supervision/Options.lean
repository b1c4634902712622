import Overseer.Text.Shown
import Overseer.Duration
import Overseer.Record

/-!
# Registration options

What can be said about a task when it is registered. `π` is how a pool is referred to and `κ` an
error callback. The priorities are a set, kept as an ascending list, and `sortKey` is the lowest
of them.
-/

namespace Overseer

/-- The options of a registration. -/
structure RegisterOptions (π κ : Type) where
  /-- Startup priorities, ascending and without repetition. -/
  priorities : List Nat := []
  /-- A name under which the task can be looked up. -/
  aliasName : Option String := none
  /-- What to do with the error of a task that failed. -/
  onError : Option κ := none
  /-- The time between two runs. -/
  period : Duration := .ofMillis 1
  /-- The pool that runs the callback. -/
  pool : Option π := none
  deriving DecidableEq, Repr

namespace RegisterOptions

variable {π κ : Type}

/-- The sort key of a task without a priority. -/
def defaultPriority : Nat := 9999

/-- The period of a task that was given none. -/
def defaultPeriod : Duration := .ofMillis 1

/-- `n` among the ascending numbers `ns`, once. -/
def insertPriority (n : Nat) : List Nat → List Nat
  | [] => [n]
  | m :: ns => if n < m then n :: m :: ns else if n == m then m :: ns else m :: insertPriority n ns

def withPriority (o : RegisterOptions π κ) (n : Nat) : RegisterOptions π κ :=
  { o with priorities := insertPriority n o.priorities }

/-- The warning about an alias that is empty. -/
def emptyAlias : Record :=
  { level := .warn, target := "tether_core::runtime::options",
    message := "Ignoring empty task alias." }

/-- An empty alias is ignored, with a warning. -/
def withAlias (o : RegisterOptions π κ) (name : String) : RegisterOptions π κ × Option Record :=
  if name.isEmpty then (o, some emptyAlias) else ({ o with aliasName := some name }, none)

def withErrorCallback (o : RegisterOptions π κ) (callback : κ) : RegisterOptions π κ :=
  { o with onError := some callback }

/-- A zero period stands for the default one. -/
def withPeriod (o : RegisterOptions π κ) (d : Duration) : RegisterOptions π κ :=
  { o with period := if d.isZero then defaultPeriod else d }

def withPool (o : RegisterOptions π κ) (pool : π) : RegisterOptions π κ :=
  { o with pool := some pool }

/-- What tasks are sorted by. -/
def sortKey (o : RegisterOptions π κ) : Nat := o.priorities.headD defaultPriority

/-- The text of the options, with pools shown by their names. -/
def shown (poolName : π → String) (o : RegisterOptions π κ) : String :=
  Text.record "RegisterOptions" [
    ("priorities", Text.braced (o.priorities.map toString)),
    ("alias", Text.optional (o.aliasName.map Text.quoted)),
    ("on_error", Text.flag o.onError.isSome),
    ("period", o.period.shown),
    ("worker_pool", Text.optional (o.pool.map fun p => Text.quoted (poolName p)))]

end RegisterOptions

end Overseer
