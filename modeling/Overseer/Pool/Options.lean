import Overseer.Text.Shown
import Overseer.Duration

/-!
# Pool options

How a pool names itself, keeps its idle workers and treats callers it cannot serve at once.
-/

namespace Overseer

/-- How a pool is referred to. -/
abbrev PoolId := Nat

/-- The options of a worker pool. -/
structure PoolOptions where
  /-- The name under which the pool is logged and measured. -/
  name : String := "worker_pool"
  /-- How long a worker may sit idle, and how often the scavenger looks. -/
  expiry : Duration := .ofSecs 1
  /-- Keep idle workers in a ring of the size of the pool. -/
  prealloc : Bool := false
  /-- How many callers may wait at once; zero is no limit. -/
  maxBlocking : Nat := 0
  /-- Refuse instead of waiting. -/
  nonblocking : Bool := false
  /-- Panics of units go to a handler of the owner instead of the log. -/
  panicHandler : Bool := false
  /-- Run no scavenger. -/
  disablePurge : Bool := false
  deriving DecidableEq, Repr

namespace PoolOptions

/-- How often the scavenger runs unless told otherwise. -/
def defaultExpiry : Duration := .ofSecs 1

/-- A zero expiry stands for the default one. -/
def normalized (o : PoolOptions) : PoolOptions :=
  if o.expiry.isZero then { o with expiry := defaultExpiry } else o

/-- The expiry in milliseconds, the unit of the pool's clock. -/
def expiryMillis (o : PoolOptions) : Nat := o.expiry.ceilMillis

def shown (o : PoolOptions) : String :=
  Text.record "WorkerPoolOptions" [
    ("name", Text.quoted o.name),
    ("expiry_duration", o.expiry.shown),
    ("prealloc", Text.flag o.prealloc),
    ("max_blocking_tasks", toString o.maxBlocking),
    ("nonblocking", Text.flag o.nonblocking),
    ("panic_handler", Text.flag o.panicHandler),
    ("disable_purge", Text.flag o.disablePurge)]

end PoolOptions

end Overseer
