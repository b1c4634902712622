import Overseer.Pool.Error
import Overseer.Pool.Options

/-!
# Pool settings

The part of a configuration that describes a pool: its capacity and its options. `toOptions`
refuses a negative expiry and nothing else.
-/

namespace Overseer

/-- The capacity of a pool that nobody configured. -/
def defaultCapacity : Int := 32767

/-- A pool as a configuration describes it. -/
structure PoolSettings where
  /-- The most workers at a time; zero or less is no limit. -/
  capacity : Int := defaultCapacity
  /-- Milliseconds a worker may sit idle; zero is the default expiry. -/
  expiryMs : Int := 0
  prealloc : Bool := false
  maxBlocking : Nat := 0
  nonblocking : Bool := false
  disablePurge : Bool := false
  deriving DecidableEq, Repr

namespace PoolSettings

/-- The options of a pool called `name`. -/
def toOptions (s : PoolSettings) (name : String) : Except PoolError PoolOptions :=
  if s.expiryMs < 0 then .error (.invalidExpiry s.expiryMs)
  else .ok {
    name := name
    expiry := .ofMillis s.expiryMs.toNat
    prealloc := s.prealloc
    maxBlocking := s.maxBlocking
    nonblocking := s.nonblocking
    disablePurge := s.disablePurge }

def shown (s : PoolSettings) : String :=
  Text.record "WorkerPoolConfiguration" [
    ("capacity", toString s.capacity),
    ("expiry_ms", toString s.expiryMs),
    ("prealloc", Text.flag s.prealloc),
    ("max_blocking_tasks", toString s.maxBlocking),
    ("nonblocking", Text.flag s.nonblocking),
    ("disable_purge", Text.flag s.disablePurge)]

end PoolSettings

end Overseer
