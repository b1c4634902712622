import Overseer.Heartbeat
import Overseer.Simulation.World

/-!
# What tasks and units do

The code of every function of a task and of every unit of work, as instructions. The code of a
function is made when the function is called.
-/

namespace Overseer.Simulation

namespace World

/-! ## Options -/

/-- The options of a registration. An empty alias leaves a warning. -/
def options (w : World) (o : OptionScript) : World × RegisterOptions PoolId Callback :=
  let plain := o.priorities.foldl RegisterOptions.withPriority
    ({} : RegisterOptions PoolId Callback)
  let (named, warning) := o.aliasName.elim (plain, none) plain.withAlias
  let timed := o.period.elim named fun ms => named.withPeriod (.ofMillis ms)
  let pooled := (o.pool.bind (lookup? w.names.pools)).elim timed timed.withPool
  (warning.elim w w.log, o.onError.elim pooled pooled.withErrorCallback)

/-! ## Tasks -/

/-- A task that a session refers to by a key. -/
def makeTask (w : World) (key : String) (body : TaskBody) : World × TaskId :=
  let (w, t) := w.addTask key body
  ({ w with names := { w.names with keys := assign w.names.keys key t } }, t)

/-- A scripted task. Its calls are listed by the session. -/
def makeScripted (w : World) (key : String) (script : TaskScript) : World × TaskId :=
  let (w, t) := w.makeTask key (.scripted script)
  ({ w with names := { w.names with scripted := assign w.names.scripted key t } }, t)

/-- The actions of a task, one after the other. -/
def actions (who : String) (propagate : Bool) (acts : List Action) : List Instr :=
  acts.flatMap fun a => [.act who a, .acted who a.verb propagate]

/-- The options of a heartbeat's stage. -/
def stageOptions (order : Nat) (period : Duration) : RegisterOptions PoolId Callback :=
  (({} : RegisterOptions PoolId Callback).withPeriod period).withPriority order

/-- The stages of a heartbeat, made and registered in their order. -/
def heartbeatInit (w : World) (stages : SetId) (args : List Argument) : World × List Instr :=
  let period := Heartbeat.stagePeriod args
  let (w, code) := (Heartbeat.stages.zipIdx 1).foldl
    (fun (acc : World × List Instr) x =>
      let (w, t) := acc.1.addTask x.1.name (.heartbeatStage x.1.name)
      (w, acc.2 ++ [.beginCall stages
        (.register (w.taskRef t) [] (stageOptions x.2 period) (some x.2) none)]))
    (w, [])
  (w, code ++ [.beginCall stages .init, .log (Heartbeat.startedRecord Heartbeat.stages.length)])

/-- What a scripted `init` does once its delay is over. -/
def initBody (key : String) (counted : TaskId) (script : TaskScript) (args : List Argument) :
    List Instr :=
  [.tally counted .inits, .emit ("init " ++ key)]
    ++ (script.init.need.elim [] fun (index, kind) => [.need key args index kind])
    ++ (script.init.panic.elim [] fun p => [.raise p])
    ++ (script.init.fail.elim [] fun text => [.fail (.fault ⟨text, []⟩)])

/-- The code of `init`. -/
def initCode (w : World) (t : TaskId) (args : List Argument) : World × List Instr :=
  match w.task? t with
  | none => (w, [])
  | some x =>
    match x.body with
    | .scripted script =>
      let waiting := fun delay => [.emit ("initializing " ++ x.key), .sleep delay]
      (w, script.init.delay.elim [] waiting
        ++ initBody x.key t script args ++ actions x.key script.init.propagate script.init.act)
    | .exported _ source =>
      match w.script? t with
      | some (_, script) =>
        (w, initBody ((w.task? source).elim "" (·.key)) source script args)
      | none => (w, [])
    | .heartbeat stages _ => w.heartbeatInit stages args
    | .bare => (w, [])
    | .heartbeatStage _ => (w, [])

/-- The code of the `n`th `run_once` of a scripted task in a loop. -/
def runBody (key : String) (s : SetId) (l : LoopId) (script : RunScript TaskScript) (n : Nat) :
    List Instr :=
  (if script.delay == 0 then [] else [.sleep script.delay])
    ++ (if script.waitCancel then
          [.awaitExit s l, .emit ("cancelled " ++ key)]
            ++ (script.cancelError.elim [] fun text => [.fail (.fault ⟨text, []⟩)])
        else [])
    ++ (if script.actAt == some n then actions key script.propagate script.act.toList else [])
    ++ (if script.panicAt == some n then [.raise (script.panic.getD .other)] else [])
    ++ (if script.failAt == some n then
          [.fail (.fault ⟨key ++ " failed at run " ++ toString n, []⟩)]
        else [])

/-- The code of `run_once` in a loop. -/
def runCode (w : World) (s : SetId) (l : LoopId) (t : TaskId) : World × List Instr :=
  match w.script? t with
  | some (counted, script) =>
    let w := w.tally counted .runs
    match w.task? counted with
    | some x => (w, runBody x.key s l script.run x.runs)
    | none => (w, [])
  | none =>
    match w.body? t with
    | some (.heartbeat _ _) => (w, [.beat t])
    | _ => (w, [])

/-- The code of `destroy`. -/
def destroyCode (w : World) (t : TaskId) : World × List Instr :=
  match w.script? t with
  | some (counted, script) =>
    let key := (w.task? counted).elim "" (·.key)
    (w, [.tally counted .destroys, .emit ("destroy " ++ key)]
      ++ actions key false script.destroy.act
      ++ (script.destroy.panic.elim [] fun p => [.raise p]))
  | none =>
    match w.body? t with
    | some (.heartbeat _ ticks) => (w.log (Heartbeat.stoppedRecord ticks), [])
    | _ => (w, [])

/-- A heartbeat pushes its next tick through the stages that are registered. -/
def beat (w : World) (t : TaskId) : World × Flow :=
  match w.body? t with
  | some (.heartbeat stages ticks) =>
    let tick := ticks + 1
    let w := { w with tasks := w.tasks.modify t fun x =>
      { x with body := .heartbeat stages tick } }
    let names := (w.set? stages).elim [] fun set => set.registry.tasks.map (·.name)
    let present := Heartbeat.stages.filter fun stage => names.contains stage.name
    let (result, records) := (Heartbeat.process present tick).run []
    let w := records.foldl log w
    match result with
    | .error payload => (w, .panic payload)
    | .ok (.error f) => (w, .error (.fault f))
    | .ok (.ok value) =>
      let w :=
        if tick % Heartbeat.reportEvery == 0 then w.log (Heartbeat.tickRecord tick value) else w
      (w, .ok .ok)
  | _ => (w, .ok .ok)

/-! ## Units of work -/

/-- The number of a worker among those that ran units under a session's name of a pool. -/
def workerNumber (w : World) (id : String) (p : PoolId) (x : WorkerId) : World × Nat :=
  let known := (lookup? w.names.workers id).getD []
  if known.contains (p, x) then (w, known.idxOf (p, x))
  else
    ({ w with names := { w.names with workers := assign w.names.workers id (known ++ [(p, x)]) } },
      known.length)

/-- What a unit does between its start and its end. -/
def unitBody (script : UnitScript) : List Instr :=
  match script.kind with
  | .now => []
  | .gate => [.awaitGate script.name]
  | .sleep ms => [.sleep ms]

/-- The code of a unit on a worker. -/
def jobCode (w : World) (p : PoolId) (x : WorkerId) : Job → World × List Instr
  | .unit id script =>
    let (w, n) := w.workerNumber id p x
    let w := w.emit ("start " ++ script.name ++ " on worker " ++ toString n)
    (w, unitBody script ++
      match script.panic with
      | some payload => [.raise payload]
      | none => [.emit ("end " ++ script.name)])
  | .callback kind t error =>
    let told := "callback " ++ w.keyOf t ++ ": " ++ error.text
    match kind with
    | .report => (w, [.emit told])
    | .panic => (w, [.emit told, .raise (.text "callback panicked")])
    | .warn =>
      (w, [.log {
        level := .warn, target := "tether_demo", message := "Heartbeat failed and was removed.",
        fields := [("task", .text (w.taskName t)), ("error", .text error.text)] }])

end World

end Overseer.Simulation
