import Overseer.Pool.Basic
import Overseer.Proofs.History

/-!
# What happens to a pool

`PoolEvent` lists everything that can happen to a pool, and `Pool.perform` is the function of the
pool that stands for it. `poolSystem υ` starts with any pool that can be made. Its outside
promises little: a call of `submit` has a number of its own and is made through a handle, as is
everything that the owner does; a unit ends only while a worker runs it; and the last handle does
not go while a caller is parked, because the call holds one.
-/

namespace Overseer

/-- Something that happens to a pool. -/
inductive PoolEvent (υ : Type) where
  | submit (c : CallerId) (u : υ)
  /-- A parked caller gets its turn. -/
  | resume (c : CallerId)
  /-- The call of a parked caller is dropped. -/
  | abandon (c : CallerId)
  | pollWorker (w : WorkerId)
  | complete (w : WorkerId) (now : Nat)
  | crash (w : WorkerId) (payload : Payload)
  | killWorker (w : WorkerId)
  | pollScavenger (s : ScavengerId) (now : Nat)
  | killScavenger (s : ScavengerId)
  | tune (size : Int)
  | release
  | beginRelease (now : Nat) (timeout : Duration)
  | reboot (now : Nat)
  | drop

/-- The worker whose task is dropped. -/
def PoolEvent.killed? {υ : Type} : PoolEvent υ → Option WorkerId
  | .killWorker w => some w
  | .submit .. | .resume .. | .abandon .. | .pollWorker .. | .complete .. | .crash ..
  | .pollScavenger .. | .killScavenger .. | .tune .. | .release | .beginRelease .. | .reboot ..
  | .drop => none

/-- What an event of a pool results in. -/
inductive PoolAnswer (υ : Type) where
  | done
  | submission (r : Submission)
  | turn (t : WorkerTurn υ)
  | tick (next : Option Nat)
  | release (r : Except PoolError ReleaseWait)

namespace Pool

variable {υ : Type}

/-- Let an event happen. -/
def perform (p : Pool υ) : PoolEvent υ → Pool υ × PoolAnswer υ
  | .submit c u => ((p.submit c u).1, .submission (p.submit c u).2)
  | .resume c => ((p.resume c).1, .submission (p.resume c).2)
  | .abandon c => (p.abandon c, .done)
  | .pollWorker w => ((p.pollWorker w).1, .turn (p.pollWorker w).2)
  | .complete w now => (p.complete w now, .done)
  | .crash w payload => (p.crash w payload, .done)
  | .killWorker w => (p.killWorker w, .done)
  | .pollScavenger s now => ((p.pollScavenger s now).1, .tick (p.pollScavenger s now).2)
  | .killScavenger s => (p.killScavenger s, .done)
  | .tune size => (p.tune size, .done)
  | .release => (p.release, .done)
  | .beginRelease now timeout =>
    ((p.beginRelease now timeout).1, .release (p.beginRelease now timeout).2)
  | .reboot now => (p.reboot now, .done)
  | .drop => (p.drop, .done)

/-- Does the worker run a unit? -/
def isBusy (p : Pool υ) (w : WorkerId) : Bool :=
  (p.worker? w).any fun x =>
    match x.phase with
    | .busy _ => true
    | _ => false

end Pool

variable {υ : Type}

/-- The call that an event begins. -/
def PoolEvent.begins? : PoolEvent υ → Option CallerId
  | .submit c _ => some c
  | _ => none

/-- The calls of `submit` so far. -/
def submitted (h : List (Occurrence (Pool υ) (PoolEvent υ))) : List CallerId :=
  h.filterMap fun o => o.event.begins?

/-- What the outside promises about the next event of a pool. -/
def Pool.allows (h : List (Occurrence (Pool υ) (PoolEvent υ))) (p : Pool υ) :
    PoolEvent υ → Bool
  | .submit c _ => !p.dropped && !(submitted h).contains c
  | .complete w _ => p.isBusy w
  | .crash w _ => p.isBusy w
  | .tune _ => !p.dropped
  | .release => !p.dropped
  | .beginRelease _ _ => !p.dropped
  | .reboot _ => !p.dropped
  | .drop => !p.dropped && p.callers.isEmpty
  | _ => true

/-- A pool to which events happen. The outside sees the notices and the answer. -/
def poolSystem (υ : Type) :
    System (Pool υ) (PoolEvent υ) (List PoolNotice × PoolAnswer υ) where
  starts p := ∃ capacity options now p₀, Pool.new capacity options now = .ok p₀ ∧
    p = p₀.collect.2
  happen p e := ((p.perform e).1.collect.2, ((p.perform e).1.collect.1, (p.perform e).2))
  allows := Pool.allows

end Overseer
