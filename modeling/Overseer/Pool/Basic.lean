import Overseer.Fault
import Overseer.Record
import Overseer.Pool.Error
import Overseer.Pool.IdleList
import Overseer.Pool.Notifier
import Overseer.Pool.Options

/-!
# Worker pools

The state of a pool and everything that can happen to it, one function for each event. A
`Pool υ` runs units of type `υ` on workers. Its callers, workers and scavengers are tasks that
some scheduler polls; the pool keeps what each of them is waiting for, so that a scheduler
only has to say which task gets its turn (`submit`, `resume`, `pollWorker`, `pollScavenger`),
how a unit ended (`complete`, `crash`) and which task was dropped (`abandon`, `killWorker`,
`killScavenger`). The operations of the owner are `tune`, `release`, `beginRelease`, `reboot`
and `drop`.

What the outside has to do about an event, such as scheduling a task that was woken, is
appended to `notices`, oldest first. Times are milliseconds.
-/

namespace Overseer

abbrev WorkerId := Nat

abbrev ScavengerId := Nat

/-- What a worker finds in its inbox. -/
inductive Message (υ : Type) where
  | unit (u : υ)
  /-- Exit. -/
  | stop
  deriving DecidableEq, Repr

/-- What the task of a worker is doing. -/
inductive WorkerPhase (υ : Type) where
  /-- Created with a first unit, and not polled yet. -/
  | spawned (u : υ)
  | busy (u : υ)
  /-- Waiting for a message. -/
  | parked
  deriving DecidableEq, Repr

/-- A worker whose task exists. -/
structure Worker (υ : Type) where
  id : WorkerId
  phase : WorkerPhase υ
  inbox : List (Message υ) := []
  deriving DecidableEq, Repr

/-- A caller that is parked in `submit` with its unit. -/
structure Caller (υ : Type) where
  id : CallerId
  unit : υ
  deriving DecidableEq, Repr

inductive ScavengerPhase where
  | running
  /-- It has come to its end. -/
  | ended
  /-- Its task was dropped before it came to its end. -/
  | lost
  deriving DecidableEq, Repr

/-- A task that evicts idle workers at a fixed interval. -/
structure Scavenger where
  id : ScavengerId
  nextTick : Nat
  cancelled : Bool := false
  phase : ScavengerPhase := .running
  deriving DecidableEq, Repr

/-- What a pool counts about itself. -/
structure Tally where
  spawned : Nat := 0
  evicted : Nat := 0
  rejected : Nat := 0
  panicked : Nat := 0
  /-- The gauge of running workers. -/
  running : Int := 0
  deriving DecidableEq, Repr

/-- What an event asks of the outside. -/
inductive PoolNotice where
  | wakeCaller (c : CallerId)
  | wakeWorker (w : WorkerId)
  | wakeScavenger (s : ScavengerId)
  | spawnWorker (w : WorkerId)
  | spawnScavenger (s : ScavengerId)
  | handlePanic (p : Payload)
  | log (r : Record)
  deriving DecidableEq, Repr

/-- A bounded pool of reusable workers. -/
structure Pool (υ : Type) where
  options : PoolOptions
  /-- The most workers at a time, if there is a limit. -/
  capacity : Option Nat
  /-- The number of slots taken. -/
  running : Nat := 0
  /-- The number of callers counted as waiting. -/
  waiting : Nat := 0
  closed : Bool := false
  /-- The last handle is gone: workers finish on their own and give back no slot. -/
  dropped : Bool := false
  idle : IdleList WorkerId
  notifier : Notifier := {}
  scavenger : Option ScavengerId := none
  nextWorker : WorkerId := 0
  nextScavenger : ScavengerId := 0
  tally : Tally := {}
  workers : List (Worker υ) := []
  callers : List (Caller υ) := []
  scavengers : List Scavenger := []
  notices : List PoolNotice := []
  deriving Repr

/-- How an attempt to hand over a unit ended. -/
inductive Submission where
  | accepted
  | refused (e : PoolError)
  /-- The caller waits and will be woken. -/
  | parked
  deriving DecidableEq, Repr

/-- What a worker does with its turn. -/
inductive WorkerTurn (υ : Type) where
  | start (u : υ)
  | wait
  | ended
  deriving DecidableEq, Repr

/-- A call of `release_timeout` that waits for workers to exit. -/
structure ReleaseWait where
  /-- The scavenger that was stopped and has to end, too. -/
  scavenger : Option ScavengerId
  deadline : Nat
  deriving DecidableEq, Repr

namespace Pool

variable {υ : Type}

/-! ## Looking at a pool -/

def name (p : Pool υ) : String := p.options.name

/-- The capacity, or -1 for an unbounded pool. -/
def cap (p : Pool υ) : Int :=
  match p.capacity with
  | none => -1
  | some c => c

/-- The workers that could still be spawned, or -1 for an unbounded pool. -/
def free (p : Pool υ) : Int :=
  match p.capacity with
  | none => -1
  | some c => c - p.running

/-- May one more worker be spawned? -/
def hasRoom (p : Pool υ) : Bool :=
  match p.capacity with
  | none => true
  | some c => p.running < c

/-- Are there more workers than the capacity allows? -/
def isOverCapacity (p : Pool υ) : Bool :=
  match p.capacity with
  | none => false
  | some c => c < p.running

/-- May one more caller wait? -/
def mayWait (p : Pool υ) : Bool :=
  !p.options.nonblocking && (p.options.maxBlocking == 0 || p.waiting < p.options.maxBlocking)

def worker? (p : Pool υ) (w : WorkerId) : Option (Worker υ) := p.workers.find? (·.id == w)

/-- Does the task of `w` exist? -/
def isAlive (p : Pool υ) (w : WorkerId) : Bool := p.workers.any (·.id == w)

def scavenger? (p : Pool υ) (s : ScavengerId) : Option Scavenger :=
  p.scavengers.find? (·.id == s)

def shown (p : Pool υ) : String :=
  Text.record "WorkerPool" [
    ("name", Text.quoted p.name),
    ("cap", toString p.cap),
    ("running", toString p.running),
    ("waiting", toString p.waiting),
    ("closed", Text.flag p.closed)]

/-! ## Small changes -/

def notify (p : Pool υ) (n : PoolNotice) : Pool υ := { p with notices := p.notices ++ [n] }

/-- Take the notices away. -/
def collect (p : Pool υ) : List PoolNotice × Pool υ := (p.notices, { p with notices := [] })

/-- The target of the pool's log records. -/
def target : String := "tether_core::pool"

def debug (p : Pool υ) (message : String) (fields : List (String × Field) := []) : Pool υ :=
  p.notify (.log { level := .debug, target := target, message := message, fields := fields })

/-- The field that names the pool. -/
def nameField (p : Pool υ) : String × Field := ("pool_name", .text p.name)

/-- The field that names a worker. -/
def workerField (w : WorkerId) : String × Field := ("worker_id", .number w)

/-- Wake the caller that has waited longest. -/
def notifyOne (p : Pool υ) : Pool υ :=
  let (notifier, woken) := p.notifier.one
  match woken with
  | none => { p with notifier := notifier }
  | some c => { p with notifier := notifier, notices := p.notices ++ [.wakeCaller c] }

/-- Wake every parked caller. -/
def notifyAll (p : Pool υ) : Pool υ :=
  let (notifier, woken) := p.notifier.all
  { p with notifier := notifier, notices := p.notices ++ woken.map .wakeCaller }

def setPhase (p : Pool υ) (w : WorkerId) (phase : WorkerPhase υ) (inbox : List (Message υ)) :
    Pool υ :=
  { p with workers :=
      p.workers.map fun x => if x.id == w then { x with phase := phase, inbox := inbox } else x }

/-- Send a message to a worker whose task exists. -/
def send (p : Pool υ) (w : WorkerId) (m : Message υ) : Pool υ :=
  if p.isAlive w then
    { p with
      workers := p.workers.map fun x =>
        if x.id == w then { x with inbox := x.inbox ++ [m] } else x
      notices := p.notices ++ [.wakeWorker w] }
  else p

/-- Tell workers to exit. -/
def stopAll (p : Pool υ) (ws : List WorkerId) : Pool υ := ws.foldl (fun p w => p.send w .stop) p

/-- Take a slot and create a worker with the first unit `u`. -/
def spawn (p : Pool υ) (u : υ) : Pool υ :=
  { p with
    running := p.running + 1
    nextWorker := p.nextWorker + 1
    tally := { p.tally with running := p.tally.running + 1, spawned := p.tally.spawned + 1 }
    workers := p.workers ++ [{ id := p.nextWorker, phase := .spawned u }]
    notices := p.notices ++ [.spawnWorker p.nextWorker] }

/-- Give back the slot of a worker, unless the pool is gone, and wake a caller for it. -/
def freeSlot (p : Pool υ) : Pool υ :=
  if p.dropped then p
  else
    { p with
      running := p.running - 1
      tally := { p.tally with running := p.tally.running - 1 } }.notifyOne

def removeWorker (p : Pool υ) (w : WorkerId) : Pool υ :=
  { p with workers := p.workers.filter (·.id != w) }

/-- The task of `w` comes to its end. -/
def exit (p : Pool υ) (w : WorkerId) : Pool υ :=
  ((p.debug "Worker exiting.").removeWorker w).freeSlot

/-! ## Submitting -/

/-- Count one more refused submission. -/
def reject (p : Pool υ) : Pool υ :=
  { p with tally := { p.tally with rejected := p.tally.rejected + 1 } }

/-- Let `c` wait with its unit. -/
def park (p : Pool υ) (c : CallerId) (u : υ) : Pool υ :=
  { p with
    notifier := p.notifier.park c
    waiting := p.waiting + 1
    callers := p.callers ++ [⟨c, u⟩] }

/-- Report idle workers whose tasks are gone. -/
def discard (p : Pool υ) (dead : List WorkerId) : Pool υ :=
  dead.foldl (fun p w => p.debug "Discarding dead idle worker." [workerField w]) p

/-- Try to hand over `u`: to an idle worker, or else to a new one, or else wait if that is
allowed. -/
def attempt (p : Pool υ) (c : CallerId) (u : υ) : Pool υ × Submission :=
  if p.closed then (p, .refused .closed)
  else
    match p.idle.detachLive p.isAlive with
    | (dead, some w, rest) => (({ p with idle := rest }.discard dead).send w (.unit u), .accepted)
    | (dead, none, rest) =>
      let p := { p with idle := rest }.discard dead
      if p.hasRoom then (p.spawn u, .accepted)
      else if p.mayWait then (p.park c u, .parked)
      else (p.reject, .refused .overload)

/-- A new call of `submit`. -/
def submit (p : Pool υ) (c : CallerId) (u : υ) : Pool υ × Submission := p.attempt c u

/-- A caller that was woken gets its turn: it stops waiting and tries again. -/
def resume (p : Pool υ) (c : CallerId) : Pool υ × Submission :=
  match p.callers.find? (·.id == c) with
  | some caller =>
    if p.notifier.isWoken c then
      { p with
        notifier := p.notifier.take c
        waiting := p.waiting - 1
        callers := p.callers.filter (·.id != c) }.attempt c caller.unit
    else (p, .parked)
  | none => (p, .parked)

/-- The call of a parked caller is dropped. -/
def abandon (p : Pool υ) (c : CallerId) : Pool υ :=
  if p.callers.any (·.id == c) then
    let (notifier, woken) := p.notifier.leave c
    { p with
      notifier := notifier
      waiting := p.waiting - 1
      callers := p.callers.filter (·.id != c)
      notices := p.notices ++ woken.toList.map .wakeCaller }
  else p

/-! ## Workers -/

/-- A worker gets its turn. -/
def pollWorker (p : Pool υ) (w : WorkerId) : Pool υ × WorkerTurn υ :=
  match p.worker? w with
  | none => (p, .ended)
  | some x =>
    match x.phase, x.inbox with
    | .spawned u, inbox => (p.setPhase w (.busy u) inbox, .start u)
    | .parked, .unit u :: inbox => (p.setPhase w (.busy u) inbox, .start u)
    | .parked, .stop :: _ => (p.exit w, .ended)
    | .parked, [] => (p, .wait)
    | .busy _, _ => (p, .wait)

/-- The unit of `w` has come to its end: the worker joins the idle list, or exits if the pool is
gone, closed or over capacity, or the list is full. -/
def complete (p : Pool υ) (w : WorkerId) (now : Nat) : Pool υ :=
  if p.dropped then p.exit w
  else if p.isOverCapacity || p.closed then p.notifyAll.exit w
  else
    match p.idle.insert? w now with
    | none => p.exit w
    | some idle => ({ p with idle := idle }.setPhase w .parked []).notifyOne

/-- Count a panic and hand it to the owner's handler, or log it. -/
def reportPanic (p : Pool υ) (w : WorkerId) (payload : Payload) : Pool υ :=
  let p := { p with tally := { p.tally with panicked := p.tally.panicked + 1 } }
  if p.options.panicHandler then p.notify (.handlePanic payload)
  else
    p.notify (.log {
      level := .error
      target := target
      message := "Worker panicked while running a unit of work: " ++ payload.message
      fields := [p.nameField, workerField w] })

/-- The unit of `w` has panicked: the worker exits. -/
def crash (p : Pool υ) (w : WorkerId) (payload : Payload) : Pool υ :=
  (if p.dropped then p else p.reportPanic w payload).exit w

/-- The task of `w` is dropped. A worker that was never polled does not give back its slot. -/
def killWorker (p : Pool υ) (w : WorkerId) : Pool υ :=
  match p.worker? w with
  | none => p
  | some x =>
    match x.phase with
    | .spawned _ => p.removeWorker w
    | _ => (p.removeWorker w).freeSlot

/-! ## The scavenger -/

def setScavenger (p : Pool υ) (s : ScavengerId) (f : Scavenger → Scavenger) : Pool υ :=
  { p with scavengers := p.scavengers.map fun x => if x.id == s then f x else x }

def cancelScavenger (p : Pool υ) (s : ScavengerId) : Pool υ :=
  (p.setScavenger s fun x => { x with cancelled := true }).notify (.wakeScavenger s)

/-- Take the scavenger out of the pool and cancel it. -/
def takeScavenger (p : Pool υ) : Pool υ × Option ScavengerId :=
  match p.scavenger with
  | none => (p, none)
  | some s => ({ p with scavenger := none }.cancelScavenger s, some s)

/-- Start a scavenger, unless purging is disabled. One that is already there is cancelled. -/
def startScavenger (p : Pool υ) (now : Nat) : Pool υ :=
  if p.options.disablePurge then p
  else
    let (p, _) := p.takeScavenger
    { p with
      scavenger := some p.nextScavenger
      nextScavenger := p.nextScavenger + 1
      scavengers := p.scavengers ++ [
        { id := p.nextScavenger, nextTick := now + p.options.expiryMillis }]
      notices := p.notices ++ [.spawnScavenger p.nextScavenger] }

/-- Evict expired workers, then wake everybody if callers could be left without a worker. -/
def purge (p : Pool υ) (now : Nat) : Pool υ :=
  let (expired, idle) := p.idle.expire p.options.expiryMillis now
  let p := { p with idle := idle }
  let p :=
    if expired.isEmpty then p
    else
      let p := p.debug "Evicting expired idle workers."
        [("evicted", .number expired.length), ("remaining", .number idle.size)]
      let p := { p with tally := { p.tally with evicted := p.tally.evicted + expired.length } }
      expired.foldl
        (fun p w => (p.debug "Stopping idle worker." [workerField w]).send w .stop) p
  if p.running == 0 || (0 < p.waiting && 0 < p.free) then p.notifyAll else p

def endScavenger (p : Pool υ) (s : ScavengerId) : Pool υ :=
  (p.debug "Scavenger stopped.").setScavenger s fun x => { x with phase := .ended }

/-- A scavenger gets its turn. The result is the time of its next tick, if it goes on. -/
def pollScavenger (p : Pool υ) (s : ScavengerId) (now : Nat) : Pool υ × Option Nat :=
  match p.scavenger? s with
  | none => (p, none)
  | some x =>
    if x.phase != .running then (p, none)
    else if x.cancelled then (p.endScavenger s, none)
    else if now < x.nextTick then (p, some x.nextTick)
    else if p.dropped || p.closed then (p.endScavenger s, none)
    else
      let next := x.nextTick + p.options.expiryMillis
      ((p.setScavenger s fun x => { x with nextTick := next }).purge now, some next)

/-- The task of a scavenger is dropped. -/
def killScavenger (p : Pool υ) (s : ScavengerId) : Pool υ :=
  p.setScavenger s fun x => if x.phase == .running then { x with phase := .lost } else x

/-! ## The owner's operations -/

/-- A pool with validated capacity and options. -/
def create (capacity : Option Nat) (options : PoolOptions) (now : Nat) : Pool υ :=
  let options := options.normalized
  let p : Pool υ := {
    options := options
    capacity := capacity
    idle := { discipline := if options.prealloc then .ring (capacity.getD 0) else .stack } }
  (p.startScavenger now).debug "Worker pool created." [p.nameField, ("capacity", .number p.cap)]

/-- A new pool. A capacity of zero or less makes it unbounded, which a ring cannot be. -/
def new (capacity : Int) (options : PoolOptions) (now : Nat) : Except PoolError (Pool υ) :=
  let capacity := if capacity ≤ 0 then none else some capacity.toNat
  if options.prealloc && capacity.isNone then .error .invalidPreallocSize
  else .ok (create capacity options now)

/-- Change the capacity of a bounded pool without a ring. Growing wakes one caller for one more
slot, and everybody for more. -/
def tune (p : Pool υ) (size : Int) : Pool υ :=
  match p.capacity with
  | none => p
  | some c =>
    if size ≤ 0 || size == c || p.options.prealloc then p
    else
      let p := { p with capacity := some size.toNat }.debug "Worker pool resized."
        [p.nameField, ("from", .number c), ("to", .number size)]
      if size ≤ c then p
      else if size - c == 1 then p.notifyOne
      else p.notifyAll

/-- Close the pool: stop the idle workers and wake everybody. -/
def close (p : Pool υ) : Pool υ :=
  if p.closed then p
  else
    let (idle, rest) := p.idle.reset
    ({ p with closed := true, idle := rest }.stopAll idle).notifyAll

/-- Stop the scavenger and close the pool. -/
def release (p : Pool υ) : Pool υ :=
  let (p, _) := p.takeScavenger
  if p.closed then p else p.close.debug "Worker pool released." [p.nameField]

/-- Close the pool and start to wait until every worker and the scavenger has ended. -/
def beginRelease (p : Pool υ) (now : Nat) (timeout : Duration) :
    Pool υ × Except PoolError ReleaseWait :=
  let (p, scavenger) := p.takeScavenger
  if p.closed || (!p.options.disablePurge && scavenger.isNone) then (p, .error .closed)
  else
    (p.close.debug "Worker pool released. Waiting for workers to exit."
        [p.nameField, ("timeout", .text timeout.shown)],
      .ok { scavenger := scavenger, deadline := now + timeout.ceilMillis })

/-- How often a waiting release looks again, in milliseconds. -/
def releasePoll : Nat := 10

/-- Has the scavenger that a release stopped come to its end? -/
def hasEnded (p : Pool υ) (scavenger : Option ScavengerId) : Bool :=
  match scavenger with
  | none => true
  | some s => (p.scavenger? s).any (·.phase == .ended)

/-- Is a waiting release over, and how? -/
def checkRelease (p : Pool υ) (wait : ReleaseWait) (now : Nat) : Option (Except PoolError Unit) :=
  if p.running == 0 && p.hasEnded wait.scavenger then some (.ok ())
  else if wait.deadline ≤ now then some (.error .timeout)
  else none

/-- Open a closed pool again. -/
def reboot (p : Pool υ) (now : Nat) : Pool υ :=
  if p.closed then
    ({ p with closed := false }.startScavenger now).debug "Worker pool rebooted." [p.nameField]
  else p

/-- The last handle is gone. Idle workers are told to exit; busy ones finish. -/
def drop (p : Pool υ) : Pool υ :=
  let (p, _) := p.takeScavenger
  let (idle, rest) := p.idle.reset
  { p with idle := rest, dropped := true }.stopAll idle

end Pool

end Overseer
