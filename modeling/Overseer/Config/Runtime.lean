import Overseer.Config.PoolSection
import Overseer.Config.Source
import Overseer.Supervision.Options

/-!
# Runtime settings

The settings of a process: the pool that runs error callbacks and the period of tasks. They come
from a file, if there is one, and from the environment variables of the program, which override
the file.
-/

namespace Overseer

/-- The settings of a process. -/
structure RuntimeSettings where
  /-- The pool that runs error callbacks. -/
  workerPool : PoolSettings := {}
  /-- Milliseconds between two runs of a task; zero is the default period. -/
  defaultPeriodMs : Nat := RegisterOptions.defaultPeriod.millis
  deriving DecidableEq, Repr

namespace RuntimeSettings

/-- The prefix of the environment variables. -/
def envPrefix : String := "TETHER"

def fields : List String := ["worker_pool", "default_task_period_ms"]

/-- Sets a field. -/
def set (field : String) (v : Value) (s : RuntimeSettings) : Except Mismatch RuntimeSettings :=
  match field with
  | "worker_pool" => do return { s with workerPool := ← PoolSettings.ofValue v }
  | "default_task_period_ms" => do return { s with defaultPeriodMs := ← v.readNatural .u64 }
  | _ => .ok s

/-- The settings that a value gives. -/
def ofValue (v : Value) : Except Mismatch RuntimeSettings :=
  v.readRecord "struct RuntimeConfiguration" fields set {}

/-- The sources of the settings: a file, if there is one, and the environment. -/
def sources (file : Option File) : List Source :=
  (file.map Source.file).toList ++ [.environment envPrefix]

/-- Loads the settings. -/
def load (file : Option File) (environment : List (String × String)) :
    Except ConfigError RuntimeSettings := do
  Layer.extract (← Source.layers environment (sources file)) ofValue

/-- The time between two runs of a task. -/
def defaultPeriod (s : RuntimeSettings) : Duration :=
  if s.defaultPeriodMs == 0 then RegisterOptions.defaultPeriod else .ofMillis s.defaultPeriodMs

def shown (s : RuntimeSettings) : String :=
  Text.record "RuntimeConfiguration" [
    ("worker_pool", s.workerPool.shown),
    ("default_task_period_ms", toString s.defaultPeriodMs)]

end RuntimeSettings

end Overseer
