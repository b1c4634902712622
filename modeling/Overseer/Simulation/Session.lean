import Overseer.Pool.Settings
import Overseer.Simulation.Messages

/-!
# Sessions

A session is a list of steps that are performed one after the other on one world. After each
step everything runs that can run without time or an outside action, and the step is answered
with what came of it: its result, the calls of earlier steps that have ended, what happened, what
was logged, and the state of things.
-/

namespace Overseer.Simulation

/-- What can be seen of a pool. -/
structure PoolView where
  cap : Int
  free : Int
  running : Nat
  waiting : Nat
  closed : Bool
  /-- Workers spawned and evicted, submissions rejected, panics, and the gauge of running workers,
  under the name of the pool. -/
  metrics : List Int
  deriving Repr

/-- What can be seen between two steps. -/
structure StateView where
  pools : List (String × PoolView)
  sups : List (String × List String)
  pipes : List (String × List String)
  /-- How often the functions of each scripted task were called. -/
  tasks : List (String × List Nat)
  deriving Repr

/-- The answer to a step. -/
structure Report where
  answer : Answer
  done : List (Nat × Answer)
  events : List (Nat × String)
  records : List Record
  state : StateView

/-- The result of performing a step: at once, or by a fiber that will say. -/
inductive Performance where
  | now (a : Answer)
  | later

namespace World

/-! ## What can be seen -/

/-- Everything that was counted under a pool's name. -/
def totals (w : World) (name : String) : Tally :=
  (w.pools.toList.filter fun x => x.pool.name == name).foldl
    (fun t x => {
      spawned := t.spawned + x.pool.tally.spawned
      evicted := t.evicted + x.pool.tally.evicted
      rejected := t.rejected + x.pool.tally.rejected
      panicked := t.panicked + x.pool.tally.panicked
      running := t.running + x.pool.tally.running })
    {}

/-- What was counted under a pool's name since the session first made such a pool. -/
def metrics (w : World) (name : String) : List Int :=
  let total := w.totals name
  let base := (lookup? w.names.baselines name).getD {}
  [(total.spawned - base.spawned : Int), (total.evicted - base.evicted : Int),
    (total.rejected - base.rejected : Int), (total.panicked - base.panicked : Int),
    total.running - base.running]

def poolView (w : World) (pool : Pool Job) : PoolView :=
  { cap := pool.cap, free := pool.free, running := pool.running, waiting := pool.waiting,
    closed := pool.closed, metrics := w.metrics pool.name }

/-- The keys of the tasks of a set, in the order in which they are visited. -/
def keysOf (w : World) (s : SetId) : List String :=
  (w.set? s).elim [] fun set => set.registry.tasks.map fun t => w.keyOf t.id

def view (w : World) : StateView where
  pools := w.names.pools.filterMap fun x => (w.pool? x.2).map fun pool => (x.1, w.poolView pool)
  sups := w.names.sups.map fun x => (x.1, w.keysOf x.2)
  pipes := w.names.pipes.map fun x => (x.1, w.keysOf x.2.1)
  tasks := w.names.scripted.filterMap fun x => (w.task? x.2).map fun t =>
    (x.1, [t.inits, t.runs, t.destroys, t.processed])

/-! ## Small steps -/

/-- An answer about something that the session knows by a name. -/
def about {α : Type} (w : World) (names : List (String × α)) (name : String)
    (f : α → World × Performance) : World × Performance :=
  match lookup? names name with
  | some a => f a
  | none => (w, .now (.misuse ("unknown name '" ++ name ++ "'")))

/-- Start a call that may have to wait. -/
def call (w : World) (step : Nat) (code : List Instr) : World × Performance :=
  (w.spawn (code ++ [.finish step]), .later)

/-- Carry out code at once and answer how it ended. -/
def perform (w : World) (code : List Instr) : World × Performance :=
  let (w, flow) := w.runNow code
  (w, .now flow.answer)

/-- Remember what has been counted under a pool's name, the first time that it comes up. -/
def remember (w : World) (name : String) : World :=
  if w.names.baselines.any (·.1 == name) then w
  else { w with names := { w.names with
    baselines := w.names.baselines ++ [(name, w.totals name)] } }

/-- Is there a unit of this name that is waiting at its gate or still has to come to it? -/
def isGated (w : World) (unit : String) : Bool :=
  let named (job : Job) : Bool :=
    match job with
    | .unit _ script => script.name == unit && script.kind == .gate
    | _ => false
  w.pools.any fun x =>
    x.pool.callers.any (fun c => named c.unit)
      || x.pool.workers.any fun y =>
        (match y.phase with
          | .spawned job => named job
          | .busy job => named job
          | .parked => false)
        || y.inbox.any fun m => match m with
          | .unit job => named job
          | .stop => false

/-- Open the gate of a unit. -/
def openGate (w : World) (unit : String) : World × Performance :=
  if w.isGated unit && !w.names.opened.contains unit then
    ({ w with names := { w.names with opened := w.names.opened ++ [unit] } }.wake (.gate unit),
      .now (.bool true))
  else (w, .now (.bool false))

/-- How many tasks are seen that are visited up to a limit. At least one is seen, if there is
one. -/
def visited {α : Type} (xs : List α) (limit : Option Nat) : List α :=
  limit.elim xs fun n => xs.take (max n 1)

/-- The text of a pipeline. -/
def pipeText (shape : Shape) (set : TaskSet Callback (Option RecoveryScript)) : String :=
  let name := match shape with
    | .sequence => "Sequence"
    | .parallel => "Parallel"
  Text.record name [("stages", Text.record "Stages" [
    ("name", Text.quoted set.name), ("len", toString set.registry.length)])]

/-- A new set, if its name will do. -/
def newSet (w : World) (script : SetScript) : Except SupervisionError (World × SetId) :=
  if script.name.isEmpty then .error (.invalidName script.name)
  else .ok (w.addSet script.name (script.pool.bind (lookup? w.names.pools))
    (script.token.bind (lookup? w.names.tokens)))

def setNames (w : World) (f : Names → Names) : World := { w with names := f w.names }

/-- The request to register a stage. -/
def stageRequest (w : World) (shape : Shape) (stage : StageScript) (t : TaskId) :
    World × Request Callback (Option RecoveryScript) :=
  let order := match shape with
    | .sequence => some (stage.order.getD 0)
    | .parallel => none
  let (w, options) := w.options stage.options
  (w, .register (w.taskRef t) stage.args (order.elim options options.withPriority) order
    stage.recovery)

/-! ## Steps -/

/-- A step about pools. -/
def performPool (w : World) (i : Nat) : Step → World × Performance
  | .poolNew id script =>
    match (Pool.new script.capacity script.options w.now : Except PoolError (Pool Job)) with
    | .error e => (w, .now (.failure (.pool e)))
    | .ok pool =>
      let (w, p) := (w.remember pool.name).addPool id pool
      (w.setNames fun n => { n with pools := assign n.pools id p }, .now .ok)
  | .poolDefault id =>
    let w := w.remember (w.poolName w.defaultPool)
    (w.setNames fun n => { n with pools := assign n.pools id w.defaultPool }, .now .ok)
  | .poolClone id copy =>
    w.about w.names.pools id fun p =>
      (w.setNames fun n => { n with pools := assign n.pools copy p }, .now .ok)
  | .poolDrop id =>
    (w.setNames fun n => { n with pools := unassign n.pools id },
      .now (.bool (w.names.pools.any (·.1 == id))))
  | .poolName id => w.about w.names.pools id fun p => (w, .now (.text (w.poolName p)))
  | .poolDebug id =>
    w.about w.names.pools id fun p => (w, .now (.text ((w.pool? p).elim "" Pool.shown)))
  | .poolTune id size =>
    w.about w.names.pools id fun p => (w.onPool p fun pool => pool.tune size, .now .ok)
  | .poolRelease id => w.about w.names.pools id fun p => (w.onPool p Pool.release, .now .ok)
  | .poolReboot id =>
    w.about w.names.pools id fun p => (w.onPool p fun pool => pool.reboot w.now, .now .ok)
  | .poolReleaseTimeout id ms =>
    w.about w.names.pools id fun p => w.call i [.beginRelease p ms]
  | .poolSubmit id unit =>
    w.about w.names.pools id fun p => w.call i [.submit p (.unit id unit)]
  | .globalSubmit id unit => w.call i [.submit w.defaultPool (.unit id unit)]
  | .globalCounts =>
    match w.pool? w.defaultPool with
    | some pool => (w, .now (.counts pool.running pool.cap pool.free))
    | none => (w, .now .null)
  | .globalRelease => (w.onPool w.defaultPool Pool.release, .now .ok)
  | .globalReboot => (w.onPool w.defaultPool fun pool => pool.reboot w.now, .now .ok)
  | .unitOpen unit => w.openGate unit
  | _ => (w, .later)

/-- A step about supervisors. -/
def performSup (w : World) (i : Nat) : Step → World × Performance
  | .supNew id script =>
    match w.newSet script with
    | .error e => (w, .now (.failure (.supervision e)))
    | .ok (w, s) => (w.setNames fun n => { n with sups := assign n.sups id s }, .now .ok)
  | .supName id =>
    w.about w.names.sups id fun s => (w, .now (.text ((w.set? s).elim "" (·.name))))
  | .supRegister id key options args =>
    w.about w.names.sups id fun s =>
      w.about w.names.keys key fun t =>
        let (w, options) := w.options options
        w.call i [.beginCall s (.register (w.taskRef t) args options none none)]
  | .supRegisterExtension id ext name options args =>
    w.about w.names.sups id fun s =>
      let (w, options) := w.options options
      w.call i [.registerExtension s ext name options args]
  | .supUnregister id key =>
    w.about w.names.sups id fun s =>
      w.about w.names.keys key fun t => w.perform [.unregister s t]
  | .supInit id => w.about w.names.sups id fun s => w.call i [.beginCall s .init]
  | .supDestroy id => w.about w.names.sups id fun s => w.call i [.beginCall s .destroy]
  | .supForEach id limit unregister =>
    w.about w.names.sups id fun s =>
      let seen := visited ((w.set? s).elim [] fun set => set.registry.tasks) limit
      let keys := seen.map fun t => w.keyOf t.id
      let leaving := if unregister then seen else []
      (leaving.foldl (fun w t => (w.runNow [.unregister s t.id]).1) w, .now (.texts keys))
  | .supAlias id name =>
    w.about w.names.sups id fun s =>
      let found := (w.set? s).elim [] fun set => set.registry.byAlias name
      (w, .now (.texts (found.map fun t => w.keyOf t.id)))
  | .supContains id key =>
    w.about w.names.sups id fun s =>
      w.about w.names.keys key fun t =>
        (w, .now (.bool ((w.set? s).any fun set => set.registry.has t)))
  | .supCount id =>
    w.about w.names.sups id fun s =>
      (w, .now (.number ((w.set? s).elim 0 fun set => set.registry.length)))
  | .supClone id copy =>
    w.about w.names.sups id fun s =>
      (w.setNames fun n => { n with sups := assign n.sups copy s }, .now .ok)
  | .supDrop id =>
    (w.setNames fun n => { n with sups := unassign n.sups id },
      .now (.bool (w.names.sups.any (·.1 == id))))
  | _ => (w, .later)

/-- A step about pipelines. -/
def performPipe (w : World) (i : Nat) : Step → World × Performance
  | .pipeNew shape id script =>
    match w.newSet script with
    | .error e => (w, .now (.failure (.supervision e)))
    | .ok (w, s) =>
      (w.setNames fun n => { n with pipes := assign n.pipes id (s, shape) }, .now .ok)
  | .pipeRegister id stage =>
    w.about w.names.pipes id fun (s, shape) =>
      match stage.key with
      | some key =>
        w.about w.names.keys key fun t =>
          let (w, request) := w.stageRequest shape stage t
          w.call i [.beginCall s request]
      | none =>
        let (w, t) := w.addTask "" .bare
        let (w, request) := w.stageRequest shape stage t
        w.call i [.beginCall s request]
  | .pipeUnregister id key =>
    w.about w.names.pipes id fun (s, _) =>
      w.about w.names.keys key fun t => w.perform [.unregister s t]
  | .pipeInit id => w.about w.names.pipes id fun (s, _) => w.call i [.beginCall s .init]
  | .pipeDestroy id => w.about w.names.pipes id fun (s, _) => w.call i [.beginCall s .destroy]
  | .pipeProcess id msg =>
    w.about w.names.pipes id fun (s, shape) =>
      let (w, a) := w.process s shape msg
      (w, .now a)
  | .pipeByOrder id order =>
    w.about w.names.pipes id fun (s, _) =>
      let found := (w.set? s).bind fun set => set.registry.byOrder? order
      (w, .now (found.elim .null fun r => .text (w.keyOf r.task.id)))
  | .pipeForEach id limit =>
    w.about w.names.pipes id fun (s, _) =>
      let seen := visited ((w.set? s).elim [] fun set => set.registry.tasks) limit
      (w, .now (.texts (seen.map fun t => w.keyOf t.id)))
  | .pipeContains id key =>
    w.about w.names.pipes id fun (s, _) =>
      w.about w.names.keys key fun t =>
        (w, .now (.bool ((w.set? s).any fun set => set.registry.has t)))
  | .pipeCount id =>
    w.about w.names.pipes id fun (s, _) =>
      (w, .now (.number ((w.set? s).elim 0 fun set => set.registry.length)))
  | .pipeName id =>
    w.about w.names.pipes id fun (s, _) => (w, .now (.text ((w.set? s).elim "" (·.name))))
  | .pipeDebug id =>
    w.about w.names.pipes id fun (s, shape) =>
      (w, .now (.text ((w.set? s).elim "" (pipeText shape))))
  | .pipeDrop id =>
    (w.setNames fun n => { n with pipes := unassign n.pipes id },
      .now (.bool (w.names.pipes.any (·.1 == id))))
  | _ => (w, .later)

/-- A step about extensions. -/
def performExtension (w : World) : Step → World × Performance
  | .extNew id => (w.setNames fun n => { n with extensions := assign n.extensions id {} }, .now .ok)
  | .extFactory id name script =>
    w.about w.names.extensions id fun registry =>
      let registry := registry.insert name (.factory { script := script })
      (w.setNames fun n => { n with extensions := assign n.extensions id registry }, .now .ok)
  | .extExports id name key script set =>
    w.about w.names.extensions id fun registry =>
      let (w, t) := w.makeScripted key script
      let registry := registry.insert name (.exported set t)
      (w.setNames fun n => { n with extensions := assign n.extensions id registry }, .now .ok)
  | .extNames id =>
    w.about w.names.extensions id fun registry => (w, .now (.texts registry.names))
  | .extDebug id =>
    w.about w.names.extensions id fun registry => (w, .now (.text registry.shown))
  | .extLoad id name keep =>
    match w.loadExtension id name with
    | (w, .error e) => (w, .now (.failure (.extension e)))
    | (w, .ok t) =>
      let w := keep.elim w fun key => w.setNames fun n => { n with keys := assign n.keys key t }
      (w, .now (.loaded (w.taskName t) (w.userData t)))
  | _ => (w, .later)

/-- Perform step number `i`. -/
def performStep (w : World) (i : Nat) (step : Step) : World × Performance :=
  match step with
  | .advance ms => (w.advance ms, .now .ok)
  | .token key =>
    let (w, t) := w.addToken
    (w.setNames fun n => { n with tokens := assign n.tokens key t }, .now .ok)
  | .cancel key => w.about w.names.tokens key fun t => (w.cancelToken t, .now .ok)
  | .newRuntime => (w.newRuntime, .now .ok)
  | .task key script => ((w.makeScripted key script).1, .now .ok)
  | .bare key => ((w.makeTask key .bare).1, .now .ok)
  | .heartbeat key =>
    let (w, s) := w.addSet Heartbeat.pipelineName none none
    ((w.makeTask key (.heartbeat s 0)).1, .now .ok)
  | .name key => w.about w.names.keys key fun t => (w, .now (.text (w.taskName t)))
  | .userData key =>
    w.about w.names.keys key fun t => (w, .now ((w.userData t).elim .null .text))
  | .processRun script => w.call i [.beginProcess script]
  | .signal number => (w.deliver number, .now .ok)
  | .unknown verb => (w, .now (.misuse ("unknown step '" ++ verb ++ "'")))
  | .poolNew .. | .poolDefault .. | .poolClone .. | .poolDrop .. | .poolName .. | .poolDebug ..
  | .poolTune .. | .poolRelease .. | .poolReboot .. | .poolReleaseTimeout .. | .poolSubmit ..
  | .globalSubmit .. | .globalCounts | .globalRelease | .globalReboot | .unitOpen .. =>
    w.performPool i step
  | .supNew .. | .supName .. | .supRegister .. | .supRegisterExtension .. | .supUnregister ..
  | .supInit .. | .supDestroy .. | .supForEach .. | .supAlias .. | .supContains .. | .supCount ..
  | .supClone .. | .supDrop .. => w.performSup i step
  | .pipeNew .. | .pipeRegister .. | .pipeUnregister .. | .pipeInit .. | .pipeDestroy ..
  | .pipeProcess .. | .pipeByOrder .. | .pipeForEach .. | .pipeContains .. | .pipeCount ..
  | .pipeName .. | .pipeDebug .. | .pipeDrop .. => w.performPipe i step
  | .extNew .. | .extFactory .. | .extExports .. | .extNames .. | .extDebug .. | .extLoad .. =>
    w.performExtension step

/-- The order of events for which only time and text count. -/
def eventLe (a b : Nat × String) : Bool := a.1 < b.1 || (a.1 == b.1 && a.2 ≤ b.2)

/-- Does a step set off several things whose order does not count? -/
def isScattered : Step → Bool
  | .advance _ => true
  | .cancel _ => true
  | .signal _ => true
  | _ => false

/-- Perform a step, let everything run, and report. -/
def report (w : World) (i : Nat) (step : Step) : World × Report :=
  let (w, performance) := { w with events := [], records := [], finished := [] }.performStep i step
  let w := w.tidy.arrive.settle
  let answer := match performance with
    | .now a => a
    | .later => ((w.finished.find? (·.1 == i)).map (·.2)).getD .pending
  (w, {
    answer := answer
    done := (w.finished.filter (·.1 != i)).mergeSort fun a b => a.1 ≤ b.1
    events := if isScattered step then w.events.mergeSort eventLe else w.events
    records := w.records
    state := w.view })

/-- The world in which a session begins: nothing but the default pool. -/
def fresh : World :=
  let pool : Pool Job := Pool.create (some defaultCapacity.toNat) { name := "default" } 0
  let (w, p) := ({} : World).addPool "default" pool
  { w with defaultPool := p }.settle

end World

/-- Perform the steps of a session from step number `i` on. -/
def runFrom (w : World) (i : Nat) : List Step → List Report
  | [] => []
  | step :: rest =>
    let (w, report) := w.report i step
    report :: runFrom w (i + 1) rest

/-- Perform the steps of a session. -/
def runSession (steps : List Step) : List Report := runFrom .fresh 0 steps

end Overseer.Simulation
