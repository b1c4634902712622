/-!
# Why a pool refuses
-/

namespace Overseer

/-- The errors of a worker pool. -/
inductive PoolError where
  /-- The pool has been released and accepts no new work. -/
  | closed
  /-- No worker was available and the caller was not allowed to wait for one. -/
  | overload
  /-- The configured idle expiry was negative. -/
  | invalidExpiry (millis : Int)
  /-- A ring was requested for an unbounded pool. -/
  | invalidPreallocSize
  /-- Workers did not exit before the release deadline. -/
  | timeout
  deriving DecidableEq, Repr

namespace PoolError

def message : PoolError → String
  | closed => "Worker pool has been closed."
  | overload => "Worker pool is overloaded."
  | invalidExpiry ms =>
    "Invalid worker expiry of " ++ toString ms ++ "ms; expiry must not be negative."
  | invalidPreallocSize => "Cannot preallocate the idle list of an unbounded worker pool."
  | timeout => "Timed out waiting for worker pool to release all workers."

end PoolError

end Overseer
