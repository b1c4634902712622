import Overseer.Fault
import Overseer.Pool.Error
import Overseer.Supervision.Error
import Overseer.Supervision.Registry

/-!
# Supervised sets

The state of a named set of tasks and everything that can happen to it, one function for each
event. Calls that may have to wait (`register`, `init`, `destroy`) and polling loops are tasks of
some scheduler: `poll` and `pollLoop` give one of them its turn, `initialized` and `ran` say how
a piece of the owner's code ended, `abandon` and `killLoop` drop one. The set keeps how far each
of them has come, so that every interleaving is a list of such events.

What the outside has to do about an event, such as calling the `destroy` of a task that has left
the set, is appended to `notices`, oldest first. Times are milliseconds.
-/

namespace Overseer

/-- How far a set has come. -/
inductive Lifecycle where
  | pending
  /-- Startup is under way. -/
  | starting
  | started
  /-- Startup failed. -/
  | aborted
  | terminated
  deriving DecidableEq, Repr

/-- What a call on a set asks for. -/
inductive Request (κ ξ : Type) where
  | register (task : TaskRef) (args : List Argument) (options : RegisterOptions PoolId κ)
      (order : Option Nat) (extra : ξ)
  | init
  | destroy

/-- How far a call has come. Unless said otherwise, it waits for the lifecycle lock or holds it. -/
inductive CallPhase (κ ξ : Type) where
  /-- A registration before its first admission. -/
  | admitting (r : Registration κ ξ)
  /-- The task of a late registration is being initialized. No lock is held. -/
  | initializing (r : Registration κ ξ)
  /-- A late registration before its second admission. -/
  | readmitting (r : Registration κ ξ)
  /-- Startup waits for the startup lock, which it holds in every later phase. -/
  | queued
  /-- Startup before it looks at the set for the first time. -/
  | opening
  /-- Startup before it initializes `next`. -/
  | checking (next : Entry) (rest : List Entry)
  /-- Startup initializes `current`. The lifecycle lock is free. -/
  | preparing (current : Entry) (rest : List Entry)
  /-- Startup has failed at `current` and is about to say so. -/
  | aborting (current : Entry) (source : Fault)
  /-- Startup before it starts the loops. -/
  | concluding
  /-- A destroy call before it starts. -/
  | demolishing
  /-- A destroy call that waits for the loops to end. -/
  | draining
  deriving DecidableEq, Repr

namespace CallPhase

variable {κ ξ : Type}

/-- Does the call wait for the loops? -/
def isDraining : CallPhase κ ξ → Bool
  | .draining => true
  | _ => false

/-- The registration that the call is about to enter. -/
def registration? : CallPhase κ ξ → Option (Registration κ ξ)
  | .admitting r => some r
  | .initializing r => some r
  | .readmitting r => some r
  | _ => none

end CallPhase

/-- A call in progress. -/
structure Call (κ ξ : Type) where
  id : CallId
  phase : CallPhase κ ξ
  deriving DecidableEq, Repr

/-- How far a polling loop has come. -/
inductive LoopPhase where
  /-- Not polled yet. -/
  | spawned
  /-- Waiting for its period to elapse. -/
  | waiting (deadline : Nat)
  | running
  /-- Handing the error of its task to a callback. -/
  | reporting
  | ended
  deriving DecidableEq, Repr

/-- A polling loop, and with it the exit token that it shares with its registration. -/
structure Loop where
  id : LoopId
  /-- The registration for which it was started. -/
  ticket : CallId
  task : TaskRef
  period : Duration
  /-- Its exit token is cancelled. -/
  cancelled : Bool
  phase : LoopPhase := .spawned
  deriving DecidableEq, Repr

/-- What an event asks of the outside. -/
inductive SetNotice where
  | wakeCall (c : CallId)
  | wakeLoop (l : LoopId)
  | spawnLoop (l : LoopId)
  /-- A registration has left: call the `destroy` of its task. -/
  | tearDown (task : TaskRef) (state : TaskState) (reason : Departure)
  /-- The root token is now a child of the parent token. -/
  | rooted
  /-- Nobody refers to the root token any more. -/
  | uprooted
  | log (r : Record)
  deriving DecidableEq, Repr

/-- A named set of supervised tasks. -/
structure TaskSet (κ ξ : Type) where
  name : String
  /-- The pool for error callbacks, unless a registration has one of its own. -/
  pool : Option PoolId := none
  lifecycle : Lifecycle := .pending
  /-- The root token exists. -/
  isRooted : Bool := false
  rootCancelled : Bool := false
  registry : Registry κ ξ := []
  lifecycleLock : Lock := {}
  startupLock : Lock := {}
  calls : List (Call κ ξ) := []
  /-- The loops whose exit tokens somebody refers to, in the order in which the root token
  knows them. -/
  loops : List Loop := []
  nextLoop : LoopId := 0
  /-- The last handle is gone. -/
  dropped : Bool := false
  notices : List SetNotice := []

/-- What a call does with its turn. -/
inductive CallTurn where
  /-- Run the `init` of a task, then say how it ended. -/
  | callInit (task : TaskRef) (args : List Argument)
  | wait
  | returned (result : Except SupervisionError Unit)

/-- What a loop does with its turn. -/
inductive LoopTurn (κ : Type) where
  /-- Run the task once, then say how that ended. -/
  | run (task : TaskRef)
  | wait (deadline : Nat)
  /-- Submit `callback task error` to a pool, the default one if none is named. -/
  | report (callback : κ) (task : TaskRef) (error : Fault) (pool : Option PoolId)
  | ended

namespace TaskSet

variable {κ ξ : Type}

/-! ## Looking at a set -/

def call? (s : TaskSet κ ξ) (c : CallId) : Option (Call κ ξ) := s.calls.find? (·.id == c)

def loop? (s : TaskSet κ ξ) (l : LoopId) : Option Loop := s.loops.find? (·.id == l)

/-- Has every loop come to its end? -/
def isQuiet (s : TaskSet κ ξ) : Bool := s.loops.all (·.phase == .ended)

/-- Does a registration refer to the exit token of the loop? -/
def isClaimed (s : TaskSet κ ξ) (l : LoopId) : Bool := s.registry.any (·.loop == some l)

/-- May tasks be registered only after they were initialized? -/
def isUnderway (s : TaskSet κ ξ) : Bool := s.lifecycle == .starting || s.lifecycle == .started

/-! ## Records -/

/-- The target of a set's records. -/
def target : String := "tether_core::runtime::supervised"

/-- The target of the records of polling loops. -/
def loopTarget : String := "tether_core::runtime::periodic"

/-- The fields that describe a teardown. -/
def teardownFields (name : String) (task : TaskRef) (state : TaskState) (reason : Departure) :
    List (String × Field) :=
  [("set", .text name), ("task", .text task.name), ("state", .text state.shown),
    ("reason", .text reason.shown)]

/-- The record of a teardown, with what the `destroy` of the task panicked with, if it did. -/
def teardownRecord (name : String) (task : TaskRef) (state : TaskState) (reason : Departure)
    (panic : Option Payload) : Record :=
  match panic with
  | none =>
    { level := .debug, target := target, message := "Task torn down.",
      fields := teardownFields name task state reason }
  | some payload =>
    { level := .error, target := target,
      message := "Task panicked during teardown: " ++ payload.message,
      fields := teardownFields name task state reason }

/-! ## Small changes -/

def notify (s : TaskSet κ ξ) (n : SetNotice) : TaskSet κ ξ := { s with notices := s.notices ++ [n] }

/-- Take the notices away. -/
def collect (s : TaskSet κ ξ) : List SetNotice × TaskSet κ ξ :=
  (s.notices, { s with notices := [] })

def record (s : TaskSet κ ξ) (level : Level) (message : String)
    (fields : List (String × Field)) : TaskSet κ ξ :=
  s.notify (.log {
    level := level, target := target, message := message,
    fields := ("set", .text s.name) :: fields })

def loopRecord (s : TaskSet κ ξ) (level : Level) (message : String)
    (fields : List (String × Field)) : TaskSet κ ξ :=
  s.notify (.log { level := level, target := loopTarget, message := message, fields := fields })

def addCall (s : TaskSet κ ξ) (c : CallId) (phase : CallPhase κ ξ) : TaskSet κ ξ :=
  { s with calls := s.calls ++ [{ id := c, phase := phase }] }

def setPhase (s : TaskSet κ ξ) (c : CallId) (phase : CallPhase κ ξ) : TaskSet κ ξ :=
  { s with calls := s.calls.map fun x => if x.id == c then { x with phase := phase } else x }

def setLoop (s : TaskSet κ ξ) (l : LoopId) (f : Loop → Loop) : TaskSet κ ξ :=
  { s with loops := s.loops.map fun x => if x.id == l then f x else x }

/-- Wake the call that has just been given a lock. -/
def wakeHolder (s : TaskSet κ ξ) (holder : Option CallId) : TaskSet κ ξ :=
  match holder with
  | none => s
  | some c => s.notify (.wakeCall c)

def lockLifecycle (s : TaskSet κ ξ) (c : CallId) : TaskSet κ ξ :=
  { s with lifecycleLock := s.lifecycleLock.acquire c }

def leaveLifecycle (s : TaskSet κ ξ) (c : CallId) : TaskSet κ ξ :=
  let (lock, holder) := s.lifecycleLock.leave c
  { s with lifecycleLock := lock }.wakeHolder holder

def leaveStartup (s : TaskSet κ ξ) (c : CallId) : TaskSet κ ξ :=
  let (lock, holder) := s.startupLock.leave c
  { s with startupLock := lock }.wakeHolder holder

/-- A call is over, however it ended: it leaves its locks. -/
def endCall (s : TaskSet κ ξ) (c : CallId) : TaskSet κ ξ :=
  ({ s with calls := s.calls.filter (·.id != c) }.leaveLifecycle c).leaveStartup c

/-- A call returns. -/
def finish (s : TaskSet κ ξ) (c : CallId) (result : Except SupervisionError Unit) :
    TaskSet κ ξ × CallTurn :=
  (s.endCall c, .returned result)

/-! ## Tokens and loops -/

/-- A list without the element at `i`, whose place the last one takes. -/
def swapRemove {α : Type} (xs : List α) (i : Nat) : List α :=
  match xs.getLast? with
  | none => []
  | some last => (xs.set i last).dropLast

/-- Forget the exit token of a loop that has ended if no registration refers to it. -/
def forgetLoop (s : TaskSet κ ξ) (l : LoopId) : TaskSet κ ξ :=
  match s.loop? l with
  | none => s
  | some x =>
    if x.phase == .ended && !s.isClaimed l then
      { s with loops := swapRemove s.loops (s.loops.findIdx (·.id == l)) }
    else s

/-- Give up the root token if neither the set nor a loop refers to it. -/
def forgetRoot (s : TaskSet κ ξ) : TaskSet κ ξ :=
  if s.isRooted && (s.dropped || s.lifecycle != .started) && s.isQuiet then
    { s with isRooted := false }.notify .uprooted
  else s

/-- Cancel the exit token of a loop. -/
def cancelLoop (s : TaskSet κ ξ) (l : LoopId) : TaskSet κ ξ :=
  if s.loops.any fun x => x.id == l && !x.cancelled then
    (s.setLoop l fun x => { x with cancelled := true }).notify (.wakeLoop l)
  else s

/-- Cancel the root token, and with it every exit token, the youngest first. -/
def cancelRoot (s : TaskSet κ ξ) : TaskSet κ ξ :=
  if !s.isRooted || s.rootCancelled then s
  else
    let s := s.loops.reverse.foldl (fun s x => s.cancelLoop x.id) s
    { s with rootCancelled := true }

/-- Start a polling loop for a registered task. -/
def startLoop (s : TaskSet κ ξ) (id : TaskId) : TaskSet κ ξ :=
  match s.registry.lookup? id with
  | none => s
  | some r =>
    let fresh : Loop := {
      id := s.nextLoop, ticket := r.ticket, task := r.task, period := r.options.period,
      cancelled := s.rootCancelled }
    { s with
      registry := s.registry.modify id fun r =>
        { r with loop := some s.nextLoop, state := .running }
      nextLoop := s.nextLoop + 1
      loops := s.loops ++ [fresh]
      notices := s.notices ++ [.spawnLoop s.nextLoop] }

/-! ## Leaving -/

/-- A registration that is no longer in the registry is torn down. -/
def tearDown (s : TaskSet κ ξ) (r : Registration κ ξ) (reason : Departure) : TaskSet κ ξ :=
  s.notify (.tearDown r.task r.state reason)

/-- Cancel the exit token of a registration, tear the registration down and let go of both. -/
def retire (s : TaskSet κ ξ) (r : Registration κ ξ) (reason : Departure) : TaskSet κ ξ :=
  match r.loop with
  | none => s.tearDown r reason
  | some l => ((s.cancelLoop l).tearDown r reason).forgetLoop l

/-- Remove a task, stop its loop and tear it down. -/
def unregister (s : TaskSet κ ξ) (task : TaskRef) : TaskSet κ ξ × Except SupervisionError Unit :=
  match s.registry.lookup? task.id with
  | none => (s, .error (.notRegistered task.name))
  | some r => ({ s with registry := s.registry.remove task.id }.retire r .stopped, .ok ())

/-- The last handle is gone: the loops are cancelled and what is registered is torn down. -/
def drop (s : TaskSet κ ξ) : TaskSet κ ξ :=
  let s := if s.lifecycle == .started then s.cancelRoot else s
  let left := s.registry
  let s := { s with registry := [], dropped := true }
  let s := left.foldl (fun s r => s.tearDown r .destroyed) s
  (left.foldl (fun s r => r.loop.elim s s.forgetLoop) s).forgetRoot

/-! ## Registering -/

/-- Why a registration may not be entered now, if so. -/
def refusal? (s : TaskSet κ ξ) (r : Registration κ ξ) : Option SupervisionError :=
  if s.lifecycle == .terminated then some .terminated
  else if s.registry.has r.task.id then some (.duplicateRegistration r.task.name)
  else
    match r.order with
    | none => none
    | some order => if s.registry.hasOrder order then some (.duplicateOrder order) else none

/-- Enter a registration. Its loop starts at once if the set has started. -/
def enroll (s : TaskSet κ ξ) (r : Registration κ ξ) : TaskSet κ ξ :=
  let s := { s with registry := s.registry.insert r }.record .debug "Registered task."
    [("task", .text r.task.name)]
  if s.lifecycle == .started then s.startLoop r.task.id else s

/-- The first look at a registration: it is refused, entered, or initialized without the lock
if the set is starting or has started. -/
def consider (s : TaskSet κ ξ) (c : CallId) (r : Registration κ ξ) : TaskSet κ ξ × CallTurn :=
  match s.refusal? r with
  | some e => s.finish c (.error e)
  | none =>
    if s.isUnderway then
      ((s.leaveLifecycle c).setPhase c (.initializing r), .callInit r.task r.args)
    else (s.enroll r).finish c (.ok ())

/-- The second look at a late registration. One that lost a race is torn down. -/
def reconsider (s : TaskSet κ ξ) (c : CallId) (r : Registration κ ξ) : TaskSet κ ξ × CallTurn :=
  match s.refusal? r with
  | some e => (s.tearDown r .stopped).finish c (.error e)
  | none => (s.enroll r).finish c (.ok ())

/-! ## Startup -/

/-- Create the root token and start the loop of every registered task. -/
def conclude (s : TaskSet κ ξ) (c : CallId) (parentCancelled : Bool) : TaskSet κ ξ × CallTurn :=
  if s.lifecycle == .terminated then s.finish c (.error .terminated)
  else
    let ids := s.registry.tasks.map (·.id)
    let s := { s with isRooted := true, rootCancelled := parentCancelled }.notify .rooted
    let s := (ids.foldl startLoop s).record .debug "Started supervised tasks."
      [("tasks", .number ids.length)]
    { s with lifecycle := .started }.finish c (.ok ())

/-- The next task of startup is due, unless the set was destroyed meanwhile. -/
def prepare (s : TaskSet κ ξ) (c : CallId) (next : Entry) (rest : List Entry) :
    TaskSet κ ξ × CallTurn :=
  if s.lifecycle == .terminated then s.finish c (.error .terminated)
  else
    ((s.leaveLifecycle c).setPhase c (.preparing next rest), .callInit next.task next.args)

/-- Go on with startup after the tasks before `entries`. -/
def goOn (s : TaskSet κ ξ) (c : CallId) (entries : List Entry) (parentCancelled : Bool) :
    TaskSet κ ξ × CallTurn :=
  let s := s.lockLifecycle c
  match entries with
  | [] =>
    let s := s.setPhase c .concluding
    if s.lifecycleLock.isHeldBy c then s.conclude c parentCancelled else (s, .wait)
  | next :: rest =>
    let s := s.setPhase c (.checking next rest)
    if s.lifecycleLock.isHeldBy c then s.prepare c next rest else (s, .wait)

/-- Startup looks at the set. It goes on only if nobody has started the set before. -/
def openUp (s : TaskSet κ ξ) (c : CallId) (parentCancelled : Bool) : TaskSet κ ξ × CallTurn :=
  match s.lifecycle with
  | .pending =>
    let s := { s with lifecycle := .starting }
    (s.leaveLifecycle c).goOn c s.registry.schedule parentCancelled
  | .starting => s.finish c (.ok ())
  | .started => s.finish c (.ok ())
  | .aborted => s.finish c (.error .initAborted)
  | .terminated => s.finish c (.error .terminated)

/-- Startup has failed. -/
def giveUp (s : TaskSet κ ξ) (c : CallId) (current : Entry) (source : Fault) :
    TaskSet κ ξ × CallTurn :=
  let s := if s.lifecycle == .terminated then s else { s with lifecycle := .aborted }
  s.finish c (.error (.initFailed current.task.name source))

/-! ## Destroying -/

/-- Cancel and tear down everything, then wait for the loops. -/
def demolish (s : TaskSet κ ξ) (c : CallId) : TaskSet κ ξ × CallTurn :=
  let s := if s.lifecycle == .started then s.cancelRoot else s
  let left := s.registry
  let s := { s with lifecycle := .terminated, registry := [] }
  let s :=
    if left.isEmpty then s
    else s.record .debug "Destroying supervised tasks." [("tasks", .number left.length)]
  let s := (left.foldl (fun s r => s.retire r .destroyed) s).forgetRoot
  if s.isQuiet then s.finish c (.ok ()) else (s.setPhase c .draining, .wait)

/-! ## Turns of calls -/

/-- A call that holds the lock it waited for, or one that waits for the loops, goes on. -/
def poll (s : TaskSet κ ξ) (c : CallId) (parentCancelled : Bool) : TaskSet κ ξ × CallTurn :=
  match s.call? c with
  | none => (s, .wait)
  | some x =>
    match x.phase with
    | .queued =>
      if s.startupLock.isHeldBy c then
        let s := (s.setPhase c .opening).lockLifecycle c
        if s.lifecycleLock.isHeldBy c then s.openUp c parentCancelled else (s, .wait)
      else (s, .wait)
    | .draining => if s.isQuiet then s.finish c (.ok ()) else (s, .wait)
    | .initializing _ => (s, .wait)
    | .preparing _ _ => (s, .wait)
    | .admitting r => if s.lifecycleLock.isHeldBy c then s.consider c r else (s, .wait)
    | .readmitting r => if s.lifecycleLock.isHeldBy c then s.reconsider c r else (s, .wait)
    | .opening => if s.lifecycleLock.isHeldBy c then s.openUp c parentCancelled else (s, .wait)
    | .checking next rest =>
      if s.lifecycleLock.isHeldBy c then s.prepare c next rest else (s, .wait)
    | .aborting current source =>
      if s.lifecycleLock.isHeldBy c then s.giveUp c current source else (s, .wait)
    | .concluding =>
      if s.lifecycleLock.isHeldBy c then s.conclude c parentCancelled else (s, .wait)
    | .demolishing => if s.lifecycleLock.isHeldBy c then s.demolish c else (s, .wait)

/-- A new call gets its first turn. -/
def begin (s : TaskSet κ ξ) (c : CallId) (request : Request κ ξ) (parentCancelled : Bool) :
    TaskSet κ ξ × CallTurn :=
  match request with
  | .register task args options order extra =>
    let r : Registration κ ξ := {
      ticket := c, task := task, args := args, options := options, order := order,
      extra := extra }
    ((s.addCall c (.admitting r)).lockLifecycle c).poll c parentCancelled
  | .init =>
    let s := s.addCall c .queued
    { s with startupLock := s.startupLock.acquire c }.poll c parentCancelled
  | .destroy => ((s.addCall c .demolishing).lockLifecycle c).poll c parentCancelled

/-- The `init` of a task that a call asked for has returned. -/
def initialized (s : TaskSet κ ξ) (c : CallId) (result : Except Fault Unit)
    (parentCancelled : Bool) : TaskSet κ ξ × CallTurn :=
  match s.call? c with
  | none => (s, .wait)
  | some x =>
    match x.phase with
    | .initializing r =>
      match result with
      | .error source => s.finish c (.error (.initFailed r.task.name source))
      | .ok _ =>
        let s := s.setPhase c (.readmitting { r with state := .initialized })
        (s.lockLifecycle c).poll c parentCancelled
    | .preparing current rest =>
      match result with
      | .error source =>
        let s := s.record .error "Task failed to initialize. Aborting startup."
          [("task", .text current.task.name), ("error", .text source.text)]
        ((s.setPhase c (.aborting current source)).lockLifecycle c).poll c parentCancelled
      | .ok _ =>
        let s := { s with
          registry := s.registry.modify current.task.id fun r =>
            { r with state := .initialized } }
        s.goOn c rest parentCancelled
    | _ => (s, .wait)

/-- A call is dropped before it returned. -/
def abandon (s : TaskSet κ ξ) (c : CallId) : TaskSet κ ξ :=
  if s.calls.any (·.id == c) then s.endCall c else s

/-! ## Turns of loops -/

/-- Wake the call that waits for the loops, if the last one has ended. -/
def wakeDraining (s : TaskSet κ ξ) : TaskSet κ ξ :=
  if s.isQuiet then
    (s.calls.filter (·.phase.isDraining)).foldl (fun s x => s.notify (.wakeCall x.id)) s
  else s

/-- A loop comes to its end. -/
def endLoop (s : TaskSet κ ξ) (l : LoopId) : TaskSet κ ξ :=
  (((s.setLoop l fun x => { x with phase := .ended }).wakeDraining).forgetLoop l).forgetRoot

/-- A loop waits for its next run, unless it is cancelled. -/
def rest (s : TaskSet κ ξ) (l : LoopId) (now : Nat) : TaskSet κ ξ × LoopTurn κ :=
  match s.loop? l with
  | none => (s, .ended)
  | some x =>
    if x.cancelled then (s.endLoop l, .ended)
    else
      let deadline := now + x.period.ceilMillis
      (s.setLoop l fun x => { x with phase := .waiting deadline }, .wait deadline)

/-- A loop gets its turn. -/
def pollLoop (s : TaskSet κ ξ) (l : LoopId) (now : Nat) : TaskSet κ ξ × LoopTurn κ :=
  match s.loop? l with
  | none => (s, .ended)
  | some x =>
    match x.phase with
    | .spawned =>
      (s.loopRecord .debug "Task loop started." [("period_ms", .number x.period.millis)]).rest l
        now
    | .waiting deadline =>
      if x.cancelled then (s.endLoop l, .ended)
      else if deadline ≤ now then
        (s.setLoop l fun x => { x with phase := .running }, .run x.task)
      else (s, .wait deadline)
    | .running => (s, .wait now)
    | .reporting => (s, .wait now)
    | .ended => (s, .ended)

/-- Remove the task of a loop that failed, tear it down, and hand its error to its callback. -/
def fail (s : TaskSet κ ξ) (l : LoopId) (task : TaskRef) (error : Fault) :
    TaskSet κ ξ × LoopTurn κ :=
  match s.registry.lookup? task.id with
  | none =>
    let s := s.record .debug "Task failed after being removed."
      [("task", .text task.name), ("error", .text error.text)]
    (s.endLoop l, .ended)
  | some r =>
    let s := { s with registry := s.registry.remove task.id }.tearDown r .failed
    let s := r.loop.elim s s.forgetLoop
    match r.options.onError with
    | none => (s.endLoop l, .ended)
    | some callback =>
      (s.setLoop l fun x => { x with phase := .reporting },
        .report callback task error (r.options.pool.orElse fun _ => s.pool))

/-- The run of a loop's task has ended. -/
def ran (s : TaskSet κ ξ) (l : LoopId) (now : Nat) (ending : Ending Unit) :
    TaskSet κ ξ × LoopTurn κ :=
  match s.loop? l with
  | none => (s, .ended)
  | some x =>
    let failing (error : Fault) : TaskSet κ ξ × LoopTurn κ :=
      let s := s.loopRecord .warn "Task failed. Removing it from its supervisor."
        [("error", .text error.text)]
      if s.dropped then (s.endLoop l, .ended) else s.fail l x.task error
    match ending with
    | .value _ => s.rest l now
    | .fault error => failing error
    | .panic payload => failing payload.toFault

/-- The error of a loop's task was handed over or refused. The loop is over. -/
def reported (s : TaskSet κ ξ) (l : LoopId) (poolName : String) (result : Except PoolError Unit) :
    TaskSet κ ξ :=
  match result with
  | .ok _ => s.endLoop l
  | .error e =>
    (s.record .error "Failed to submit task error callback."
      [("pool", .text poolName), ("error", .text e.message)]).endLoop l

/-- The task of a loop is dropped. -/
def killLoop (s : TaskSet κ ξ) (l : LoopId) : TaskSet κ ξ :=
  match s.loop? l with
  | none => s
  | some x => if x.phase == .ended then s else s.endLoop l

end TaskSet

end Overseer
