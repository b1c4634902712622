import Overseer.Pool.Basic
import Overseer.Simulation.Script
import Overseer.Supervision.TaskSet

/-!
# The world of a simulation

Everything that exists in a simulation at one moment: pools, supervised sets, cancellation tokens
and tasks, and the fibers that run on a single thread. A fiber is a program that is carried out
one instruction at a time; between two of its turns it is nothing but the list of the instructions
that are left. A fiber that waits says for what (`Wait`), and everything that can end a wait is a
`Signal` or a deadline.
-/

namespace Overseer.Simulation

abbrev SetId := Nat

abbrev TokenId := Nat

abbrev FiberId := Nat

/-- A unit of work in a pool. -/
inductive Job where
  /-- A scripted unit, submitted under a session's name of a pool. -/
  | unit (pool : String) (script : UnitScript)
  /-- The callback for a task that failed. -/
  | callback (kind : Callback) (task : TaskId) (error : Fault)
  deriving DecidableEq, Repr

/-- What a call reports when it fails. -/
inductive Failure where
  | pool (e : PoolError)
  | supervision (e : SupervisionError)
  | extension (e : ExtensionError)
  | fault (f : Fault)
  deriving DecidableEq, Repr

namespace Failure

def message : Failure → String
  | pool e => e.message
  | supervision e => e.message
  | extension e => e.message
  | fault f => f.text

def toFault : Failure → Fault
  | pool e => ⟨e.message, []⟩
  | supervision e => e.toFault
  | extension e => e.toFault
  | fault f => f

end Failure

/-- What a step of a session can answer. -/
inductive Answer where
  | ok
  | pending
  | cancelled
  | null
  | bool (b : Bool)
  | number (n : Int)
  | text (s : String)
  | texts (ss : List String)
  /-- The message that came out of a sequence. -/
  | message (s : String)
  /-- The messages that came out of a parallel pipeline. -/
  | messages (ss : List String)
  | counts (running : Nat) (cap free : Int)
  | loaded (name : String) (userData : Option String)
  | failure (f : Failure)
  | panic (p : Payload)
  | misuse (text : String)
  deriving DecidableEq, Repr

/-- The state of the computation in a fiber. -/
inductive Flow where
  | ok (a : Answer)
  | error (f : Failure)
  | panic (p : Payload)
  deriving DecidableEq, Repr

namespace Flow

def isOk : Flow → Bool
  | ok _ => true
  | _ => false

def isPanic : Flow → Bool
  | panic _ => true
  | _ => false

def ofResult : Except SupervisionError Unit → Flow
  | .ok _ => ok .ok
  | .error e => error (.supervision e)

def ofPoolResult : Except PoolError Unit → Flow
  | .ok _ => ok .ok
  | .error e => error (.pool e)

/-- How a piece of user code ended that ended in this state. -/
def ending : Flow → Ending Unit
  | ok _ => .value ()
  | error f => .fault f.toFault
  | panic p => .panic p

/-- The answer of a call that ended in this state. -/
def answer : Flow → Answer
  | ok a => a
  | error f => .failure f
  | panic p => .panic p

end Flow

/-- What can end a wait. -/
inductive Signal where
  | caller (pool : PoolId) (caller : CallerId)
  | worker (pool : PoolId) (worker : WorkerId)
  | scavenger (pool : PoolId) (scavenger : ScavengerId)
  | call (set : SetId) (call : CallId)
  /-- The exit token of a loop. -/
  | exit (set : SetId) (loop : LoopId)
  | token (token : TokenId)
  | gate (unit : String)
  /-- A signal of the system. -/
  | system (number : Int)
  deriving DecidableEq, Repr

/-- What a fiber waits for. -/
structure Wait where
  deadline : Option Nat := none
  signals : List Signal := []
  deriving DecidableEq, Repr

/-- Which calls of a task are counted. -/
inductive Counter where
  | inits | runs | destroys | processed
  deriving DecidableEq, Repr

/-- A process that runs in a fiber. -/
structure ProcessRun where
  process : Process
  root : String
  set : SetId
  shutdown : TokenId
  handlers : List FiberId
  deriving Repr

/-- One instruction. Those that end a piece of user code or of a call say so; all others are
skipped once the code before them has failed. -/
inductive Instr where
  | emit (text : String)
  | log (r : Record)
  | answer (a : Answer)
  | fail (f : Failure)
  | raise (p : Payload)
  | tally (task : TaskId) (c : Counter)
  | sleep (ms : Nat)
  | sleepUntil (deadline : Nat)
  | awaitGate (unit : String)
  | awaitExit (set : SetId) (loop : LoopId)
  | awaitToken (token : TokenId)
  | need (key : String) (args : List Argument) (index : Nat) (kind : ArgumentKind)
  /-- The task `who` takes an action. -/
  | act (who : String) (a : Action)
  /-- The end of an action. -/
  | acted (who verb : String) (propagate : Bool)
  /-- Push the tick of a heartbeat through its stages. -/
  | beat (task : TaskId)
  | beginCall (set : SetId) (request : Request Callback (Option RecoveryScript))
  | pollCall (set : SetId) (call : CallId)
  /-- Run the `init` of a task for a call. -/
  | initTask (set : SetId) (call : CallId) (task : TaskId) (args : List Argument)
  /-- The end of the `init` of a task. -/
  | initEnd (set : SetId) (call : CallId)
  | unregister (set : SetId) (task : TaskId)
  /-- Load an extension, then register the task with a set. -/
  | registerExtension (set : SetId) (ext name : String)
      (options : RegisterOptions PoolId Callback) (args : List Argument)
  | pollLoop (set : SetId) (loop : LoopId)
  /-- Run the `run_once` of a task for a loop. -/
  | runTask (set : SetId) (loop : LoopId) (task : TaskId)
  /-- The end of the `run_once` of a task. -/
  | runEnd (set : SetId) (loop : LoopId)
  /-- The end of the hand-over of an error to a callback. -/
  | reported (set : SetId) (loop : LoopId) (pool : PoolId)
  /-- Run the `destroy` of a task. -/
  | destroyTask (task : TaskId)
  /-- The end of the `destroy` of a task. -/
  | destroyEnd (set : SetId) (task : TaskRef) (state : TaskState) (reason : Departure)
  /-- What is left of the notices of a set. -/
  | setNotices (set : SetId) (notices : List SetNotice)
  | submit (pool : PoolId) (job : Job)
  | awaitCaller (pool : PoolId) (caller : CallerId)
  | pollWorker (pool : PoolId) (worker : WorkerId)
  /-- The end of a unit of work. -/
  | unitEnd (pool : PoolId) (worker : WorkerId)
  | pollScavenger (pool : PoolId) (scavenger : ScavengerId)
  | release (pool : PoolId)
  | beginRelease (pool : PoolId) (ms : Nat)
  | awaitRelease (pool : PoolId) (wait : ReleaseWait)
  | beginProcess (script : ProcessScript)
  /-- A process goes on after what it demanded. -/
  | continueProcess (run : ProcessRun) (phase : ProcessPhase)
  | listen (number : Int) (token : TokenId)
  | received (number : Int) (token : TokenId)
  /-- The end of the call of a step. -/
  | finish (step : Nat)

/-- A program that runs by itself. -/
structure Fiber where
  id : FiberId
  code : List Instr
  flow : Flow := .ok .ok
  /-- What the fiber waits for; a fiber that does not wait is in the queue. -/
  wait : Option Wait := none
  /-- When the wait began, counted in waits. -/
  since : Nat := 0

/-- A pool, and what a session calls it in its panic handler. -/
structure PoolObject where
  pool : Pool Job
  label : String := ""

/-- A set and its parent token. -/
structure SetObject where
  set : TaskSet Callback (Option RecoveryScript)
  parent : Option TokenId := none

/-- A cancellation token and the sets whose root tokens are children of it. -/
structure Token where
  cancelled : Bool := false
  children : List SetId := []
  deriving Repr

/-- The code of a task. -/
inductive TaskBody where
  | scripted (script : TaskScript)
  /-- Defines nothing. -/
  | bare
  | heartbeat (stages : SetId) (ticks : Nat)
  | heartbeatStage (name : String)
  /-- The exported functions of a scripted task under the name of an extension. -/
  | exported (name : String) (source : TaskId)

/-- A task and how often its functions were called. -/
structure TaskObject where
  key : String
  body : TaskBody
  inits : Nat := 0
  runs : Nat := 0
  destroys : Nat := 0
  processed : Nat := 0

/-- A factory of an extension, and how many tasks it has made. -/
structure Factory where
  script : FactoryScript
  made : Nat := 0

abbrev Extensions := ExtensionRegistry Factory TaskId

/-- The names that a session has given. -/
structure Names where
  pools : List (String × PoolId) := []
  sups : List (String × SetId) := []
  pipes : List (String × SetId × Shape) := []
  tokens : List (String × TokenId) := []
  keys : List (String × TaskId) := []
  /-- The scripted tasks, by key. -/
  scripted : List (String × TaskId) := []
  extensions : List (String × Extensions) := []
  /-- The workers of each pool in the order in which they first ran a unit. -/
  workers : List (String × List (PoolId × WorkerId)) := []
  /-- The gates that were opened. -/
  opened : List String := []
  /-- What had been counted under a pool's name when the session first made such a pool. -/
  baselines : List (String × Tally) := []

/-- Everything there is. -/
structure World where
  now : Nat := 0
  pools : Array PoolObject := #[]
  defaultPool : PoolId := 0
  sets : Array SetObject := #[]
  tokens : Array Token := #[]
  tasks : Array TaskObject := #[]
  fibers : List Fiber := []
  /-- Fibers that can go on because of another fiber or a deadline. -/
  queue : List FiberId := []
  /-- Fibers that can go on because of an outside action. -/
  arrivals : List FiberId := []
  nextFiber : FiberId := 0
  nextCall : CallId := 0
  nextCaller : CallerId := 0
  nextWait : Nat := 0
  names : Names := {}
  /-- What happened, oldest first. -/
  events : List (Nat × String) := []
  records : List Record := []
  /-- The calls of steps that have ended. -/
  finished : List (Nat × Answer) := []

/-- The value of a name. -/
def lookup? {α : Type} (names : List (String × α)) (name : String) : Option α :=
  (names.find? (·.1 == name)).map (·.2)

/-- Give a name a value, in the place of an earlier one. -/
def assign {α : Type} (names : List (String × α)) (name : String) (a : α) : List (String × α) :=
  if names.any (·.1 == name) then names.map fun x => if x.1 == name then (name, a) else x
  else names ++ [(name, a)]

/-- Take a name away. -/
def unassign {α : Type} (names : List (String × α)) (name : String) : List (String × α) :=
  names.filter (·.1 != name)

namespace World

/-! ## Records and events -/

def emit (w : World) (text : String) : World := { w with events := w.events ++ [(w.now, text)] }

def log (w : World) (r : Record) : World := { w with records := w.records ++ [r] }

/-! ## Fibers -/

/-- Start a fiber. It gets its turn after those that are in the queue. -/
def spawn (w : World) (code : List Instr) : World :=
  { w with
    fibers := w.fibers ++ [{ id := w.nextFiber, code := code }]
    queue := w.queue ++ [w.nextFiber]
    nextFiber := w.nextFiber + 1 }

/-- Let fibers go on that wait. Those that have waited longest come first. -/
def wakeAll (w : World) (fibers : List Fiber) : World :=
  let ids := (fibers.mergeSort fun a b => a.since ≤ b.since).map (·.id)
  { w with
    fibers := w.fibers.map fun f => if ids.contains f.id then { f with wait := none } else f
    queue := w.queue ++ ids }

/-- Let the fibers go on that wait for a signal. -/
def wake (w : World) (s : Signal) : World :=
  w.wakeAll (w.fibers.filter fun f => f.wait.any fun wait => wait.signals.contains s)

/-- The next deadline of a fiber, if it is not later than `limit`. -/
def nextDeadline? (w : World) (limit : Nat) : Option Nat :=
  (w.fibers.filterMap fun f => f.wait.bind (·.deadline)).foldl
    (fun best d => if limit < d then best else some (best.elim d (min d))) none

/-- Let the fibers go on whose deadlines have come, the earliest deadline first. -/
def wakeDue (w : World) : World :=
  let due := w.fibers.filter fun f => f.wait.any fun wait => wait.deadline.any (· ≤ w.now)
  w.wakeAll due

/-- Forget a fiber. -/
def removeFiber (w : World) (id : FiberId) : World :=
  { w with
    fibers := w.fibers.filter (·.id != id)
    queue := w.queue.filter (· != id)
    arrivals := w.arrivals.filter (· != id) }

/-! ## Pools -/

def pool? (w : World) (p : PoolId) : Option (Pool Job) := w.pools[p]?.map (·.pool)

def poolName (w : World) (p : PoolId) : String := (w.pool? p).elim "" (·.name)

/-- Meet what an event of a pool asks for. -/
def meetPool (w : World) (p : PoolId) : PoolNotice → World
  | .wakeCaller c => w.wake (.caller p c)
  | .wakeWorker x => w.wake (.worker p x)
  | .wakeScavenger s => w.wake (.scavenger p s)
  | .spawnWorker x => w.spawn [.pollWorker p x]
  | .spawnScavenger s => w.spawn [.pollScavenger p s]
  | .handlePanic payload =>
    w.emit ("panic in " ++ (w.pools[p]?.elim "" (·.label)) ++ ": " ++ payload.message)
  | .log r => w.log r

/-- The new state of a pool, once all that it asks for is met. -/
def putPool (w : World) (p : PoolId) (pool : Pool Job) : World :=
  let (notices, pool) := pool.collect
  let w := { w with pools := w.pools.modify p fun x => { x with pool := pool } }
  notices.foldl (fun w n => w.meetPool p n) w

/-- Something happens to a pool. -/
def onPool (w : World) (p : PoolId) (f : Pool Job → Pool Job) : World :=
  match w.pool? p with
  | none => w
  | some pool => w.putPool p (f pool)

/-- Something happens to a pool that has a result. -/
def withPool {α : Type} (w : World) (p : PoolId) (default : α) (f : Pool Job → Pool Job × α) :
    World × α :=
  match w.pool? p with
  | none => (w, default)
  | some pool =>
    let (pool, a) := f pool
    (w.putPool p pool, a)

/-- A new pool. -/
def addPool (w : World) (label : String) (pool : Pool Job) : World × PoolId :=
  ({ w with pools := w.pools.push { pool := pool, label := label } }.putPool w.pools.size pool,
    w.pools.size)

/-! ## Tasks -/

def task? (w : World) (t : TaskId) : Option TaskObject := w.tasks[t]?

/-- The code of a task. -/
def body? (w : World) (t : TaskId) : Option TaskBody := (w.task? t).map (·.body)

def addTask (w : World) (key : String) (body : TaskBody) : World × TaskId :=
  ({ w with tasks := w.tasks.push { key := key, body := body } }, w.tasks.size)

/-- The name that a task goes by. -/
def taskName (w : World) (t : TaskId) : String :=
  match w.task? t with
  | none => ""
  | some x =>
    match x.body with
    | .scripted script => script.name.getD x.key
    | .bare => "<type name>"
    | .heartbeat _ _ => "heartbeat"
    | .heartbeatStage name => name
    | .exported name _ => name

def taskRef (w : World) (t : TaskId) : TaskRef := ⟨t, w.taskName t⟩

/-- The script of a scripted task, and the task that counts its calls. -/
def script? (w : World) (t : TaskId) : Option (TaskId × TaskScript) := do
  let x ← w.task? t
  match x.body with
  | .scripted script => some (t, script)
  | .exported _ source =>
    let y ← w.task? source
    match y.body with
    | .scripted script => some (source, script)
    | _ => none
  | _ => none

def userData (w : World) (t : TaskId) : Option String :=
  match w.script? t with
  | some (_, script) => script.userData
  | none => none

/-- Count a call of a function of a task. -/
def tally (w : World) (t : TaskId) (c : Counter) : World :=
  { w with tasks := w.tasks.modify t fun x =>
      match c with
      | .inits => { x with inits := x.inits + 1 }
      | .runs => { x with runs := x.runs + 1 }
      | .destroys => { x with destroys := x.destroys + 1 }
      | .processed => { x with processed := x.processed + 1 } }

/-- How a session lists a task: by its first key, or by its name if it has none. -/
def keyOf (w : World) (t : TaskId) : String :=
  let keys := (w.names.keys.filter (·.2 == t)).map (·.1)
  match (keys.mergeSort fun a b => a ≤ b).head? with
  | some key => key
  | none => "~" ++ w.taskName t

/-! ## Tokens -/

def addToken (w : World) : World × TokenId :=
  ({ w with tokens := w.tokens.push {} }, w.tokens.size)

def isCancelled (w : World) (t : TokenId) : Bool := w.tokens[t]?.any (·.cancelled)

/-! ## Sets -/

def set? (w : World) (s : SetId) : Option (TaskSet Callback (Option RecoveryScript)) :=
  w.sets[s]?.map (·.set)

/-- Is the parent token of a set cancelled? -/
def parentCancelled (w : World) (s : SetId) : Bool :=
  (w.sets[s]?.bind (·.parent)).any w.isCancelled

def addSet (w : World) (name : String) (pool : Option PoolId) (parent : Option TokenId) :
    World × SetId :=
  ({ w with sets := w.sets.push { set := { name := name, pool := pool }, parent := parent } },
    w.sets.size)

/-- The root token of a set becomes a child of its parent token. -/
def adopt (w : World) (s : SetId) : World :=
  match w.sets[s]?.bind (·.parent) with
  | none => w
  | some t =>
    if w.isCancelled t then w
    else { w with tokens := w.tokens.modify t fun x => { x with children := x.children ++ [s] } }

/-- The root token of a set is no longer a child of its parent token. -/
def disown (w : World) (s : SetId) : World :=
  match w.sets[s]?.bind (·.parent) with
  | none => w
  | some t =>
    { w with tokens := w.tokens.modify t fun x =>
        if x.children.contains s then
          { x with children := TaskSet.swapRemove x.children (x.children.idxOf s) }
        else x }

end World

end Overseer.Simulation
