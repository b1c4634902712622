import Overseer.Simulation.Behaviour

/-!
# Carrying out instructions

`World.exec` carries out one instruction of a fiber. The outcome is the code that is left, the
state of the computation, and a wait if the fiber cannot go on. Once the state is a failure or a
panic, instructions are skipped up to one that ends the piece of code to which they belong.

A function of a task that is called on the way, such as the `destroy` of a task that leaves its
set, is put in front of the code that is left, so that everything happens in order.
-/

namespace Overseer.Simulation

/-- How an instruction leaves things. -/
structure Outcome where
  world : World
  code : List Instr
  flow : Flow
  wait : Option Wait := none

namespace World

/-! ## Tokens -/

/-- Meet what a set asks for up to the first teardown, which becomes code. -/
def meetSet (w : World) (s : SetId) : List SetNotice → World × List Instr
  | [] => (w, [])
  | notice :: rest =>
    match notice with
    | .wakeCall c => (w.wake (.call s c)).meetSet s rest
    | .wakeLoop l => (w.wake (.exit s l)).meetSet s rest
    | .spawnLoop l => (w.spawn [.pollLoop s l]).meetSet s rest
    | .rooted => (w.adopt s).meetSet s rest
    | .uprooted => (w.disown s).meetSet s rest
    | .log r => (w.log r).meetSet s rest
    | .tearDown task state reason =>
      (w, [.destroyTask task.id, .destroyEnd s task state reason, .setNotices s rest])

/-- The new state of a set, and the code that this calls for. -/
def putSet (w : World) (s : SetId) (set : TaskSet Callback (Option RecoveryScript)) :
    World × List Instr :=
  let (notices, set) := set.collect
  { w with sets := w.sets.modify s fun x => { x with set := set } }.meetSet s notices

/-- Something happens to a set that has a result. -/
def withSet {α : Type} (w : World) (s : SetId) (default : α)
    (f : TaskSet Callback (Option RecoveryScript) →
      TaskSet Callback (Option RecoveryScript) × α) : World × List Instr × α :=
  match w.set? s with
  | none => (w, [], default)
  | some set =>
    let (set, a) := f set
    let (w, code) := w.putSet s set
    (w, code, a)

/-- Something happens to a set. -/
def onSet (w : World) (s : SetId)
    (f : TaskSet Callback (Option RecoveryScript) → TaskSet Callback (Option RecoveryScript)) :
    World × List Instr :=
  match w.set? s with
  | none => (w, [])
  | some set => w.putSet s (f set)

/-- Cancel a token: first the root tokens below it, the youngest first, then itself. -/
def cancelToken (w : World) (t : TokenId) : World :=
  match w.tokens[t]? with
  | none => w
  | some token =>
    if token.cancelled then w
    else
      let w := { w with tokens := w.tokens.modify t fun _ => { cancelled := true } }
      let w := token.children.reverse.foldl (fun w s => (w.onSet s TaskSet.cancelRoot).1) w
      w.wake (.token t)

/-! ## Calls on sets -/

/-- What a call goes on with after its turn. -/
def callCode (s : SetId) (c : CallId) : CallTurn → List Instr
  | .callInit task args => [.initTask s c task.id args]
  | .wait => [.pollCall s c]
  | .returned (.ok _) => [.answer .ok]
  | .returned (.error e) => [.fail (.supervision e)]

def beginCall (w : World) (s : SetId) (request : Request Callback (Option RecoveryScript)) :
    World × List Instr :=
  let c := w.nextCall
  let cancelled := w.parentCancelled s
  let (w, code, turn) := { w with nextCall := c + 1 }.withSet s .wait fun set =>
    set.begin c request cancelled
  (w, code ++ callCode s c turn)

/-- Does a turn mean that the call still waits? -/
def mustWait : CallTurn → Bool
  | .wait => true
  | _ => false

/-! ## Loops -/

/-- What a loop goes on with after its turn. -/
def loopCode (w : World) (s : SetId) (l : LoopId) : LoopTurn Callback → List Instr
  | .run task => [.runTask s l task.id]
  | .wait _ => [.pollLoop s l]
  | .report kind task error pool =>
    let p := pool.getD w.defaultPool
    [.submit p (.callback kind task.id error), .reported s l p]
  | .ended => []

/-! ## Extensions -/

/-- Make the task of an extension. -/
def loadExtension (w : World) (ext name : String) : World × Except ExtensionError TaskId :=
  match lookup? w.names.extensions ext with
  | none => (w, .error (.notFound name))
  | some registry =>
    match registry.resolve name with
    | .error e => (w, .error e)
    | .ok (.exported _ source) =>
      let (w, t) := w.addTask name (.exported name source)
      (w.log (ExtensionRegistry.loadedRecord name (w.taskName t)), .ok t)
    | .ok (.factory factory) =>
      match factory.script with
      | .fail text => (w, .error (.load name ⟨text, []⟩))
      | .make key script =>
        let n := factory.made + 1
        let registry := registry.insert name (.factory { factory with made := n })
        let w := { w with names := { w.names with
          extensions := assign w.names.extensions ext registry } }
        let (w, t) := w.makeScripted (key ++ "#" ++ toString n) script
        (w.log (ExtensionRegistry.loadedRecord name (w.taskName t)), .ok t)

/-! ## Actions -/

/-- Something that a session does not know. -/
def unknownName (name : String) : Failure := .fault ⟨"unknown name '" ++ name ++ "'", []⟩

/-- The code of an action. -/
def actionCode (w : World) (who : String) : Action → World × List Instr
  | .register sup key task options args =>
    let w := task.elim w fun script => (w.makeScripted key script).1
    match lookup? w.names.sups sup, lookup? w.names.keys key with
    | some s, some t =>
      let (w, options) := w.options options
      (w, [.beginCall s (.register (w.taskRef t) args options none none)])
    | none, _ => (w, [.fail (unknownName sup)])
    | _, none => (w, [.fail (unknownName key)])
  | .init sup =>
    match lookup? w.names.sups sup with
    | some s => (w, [.beginCall s .init])
    | none => (w, [.fail (unknownName sup)])
  | .destroy sup =>
    match lookup? w.names.sups sup with
    | some s => (w, [.beginCall s .destroy])
    | none => (w, [.fail (unknownName sup)])
  | .unregister sup key =>
    match lookup? w.names.sups sup, lookup? w.names.keys key with
    | some s, some t => (w, [.unregister s t])
    | none, _ => (w, [.fail (unknownName sup)])
    | _, none => (w, [.fail (unknownName key)])
  | .pipeUnregister pipe key =>
    match lookup? w.names.pipes pipe, lookup? w.names.keys key with
    | some (s, _), some t => (w, [.unregister s t])
    | none, _ => (w, [.fail (unknownName pipe)])
    | _, none => (w, [.fail (unknownName key)])
  | .cancel token =>
    match lookup? w.names.tokens token with
    | some t => (w.cancelToken t, [])
    | none => (w, [.fail (unknownName token)])
  | .release pool =>
    match lookup? w.names.pools pool with
    | some p => (w, [.release p])
    | none => (w, [.fail (unknownName pool)])
  | .count sup =>
    match (lookup? w.names.sups sup).bind w.set? with
    | some set => (w.emit (who ++ " count " ++ toString set.registry.length), [])
    | none => (w, [.fail (unknownName sup)])

/-! ## Processes -/

/-- Begin a process: its set, its token and its signal handlers come first. -/
def beginProcess (w : World) (script : ProcessScript) : World × List Instr :=
  match lookup? w.names.keys script.key with
  | none => (w, [.fail (unknownName script.key)])
  | some task =>
    let (w, options) := w.options script.options
    let process : Process := {
      name := script.name
      pool := script.pool.bind (lookup? w.names.pools)
      handleSignals := script.handleSignals
      signals := script.signals }
    match process.startFault? with
    | some f => (w, [.fail (.fault f)])
    | none =>
      let (w, shutdown) := match script.token.bind (lookup? w.names.tokens) with
        | some t => (w, t)
        | none => w.addToken
      let (w, s) := w.addSet process.name process.pool (some shutdown)
      let first := w.nextFiber
      let w := process.listened.foldl (fun w n => w.spawn [.listen n shutdown]) w
      let run : ProcessRun := {
        process := process
        root := w.taskName task
        set := s
        shutdown := shutdown
        handlers := (List.range process.listened.length).map (first + ·) }
      (w, [.beginCall s (.register ⟨task, run.root⟩ script.args options none none),
        .continueProcess run .registering])

/-- Release the pool of a process. -/
def releaseFor (w : World) (run : ProcessRun) : World :=
  w.onPool (run.process.pool.getD w.defaultPool) Pool.release

/-- What a call of a process reports. -/
def asResult : Flow → Except SupervisionError Unit
  | .error (.supervision e) => .error e
  | _ => .ok ()

/-- A process goes on. -/
def continueProcess (w : World) (run : ProcessRun) (phase : ProcessPhase) (flow : Flow) :
    World × List Instr :=
  let (records, phase, demand) := run.process.next run.root phase (asResult flow)
  let again := phase.toList.map (Instr.continueProcess run)
  match demand with
  | .register => (records.foldl log w, again)
  | .init => (records.foldl log w, [.beginCall run.set .init] ++ again)
  | .serve => (records.foldl log w, [.awaitToken run.shutdown] ++ again)
  | .destroy =>
    (run.handlers.foldl removeFiber (records.foldl log w),
      [.beginCall run.set .destroy] ++ again)
  | .stop result =>
    (records.foldl log (w.releaseFor run),
      match result with
      | .ok _ => [.answer .ok]
      | .error f => [.fail (.fault f)])

/-! ## Instructions -/

/-- What a submission leaves to be done. -/
def submissionCode (p : PoolId) (c : CallerId) : Submission → List Instr
  | .accepted => [.answer .ok]
  | .refused e => [.fail (.pool e)]
  | .parked => [.awaitCaller p c]

/-- Carry out an instruction after code that has not failed. -/
def execNext (w : World) (i : Instr) (rest : List Instr) (flow : Flow) : Outcome :=
  match i with
  | .emit text => { world := w.emit text, code := rest, flow := flow }
  | .log r => { world := w.log r, code := rest, flow := flow }
  | .answer a => { world := w, code := rest, flow := .ok a }
  | .fail f => { world := w, code := rest, flow := .error f }
  | .raise p => { world := w, code := rest, flow := .panic p }
  | .tally t c => { world := w.tally t c, code := rest, flow := flow }
  | .sleep ms =>
    { world := w, code := .sleepUntil (w.now + ms) :: rest, flow := flow }
  | .sleepUntil deadline =>
    if deadline ≤ w.now then { world := w, code := rest, flow := flow }
    else { world := w, code := i :: rest, flow := flow, wait := some { deadline := deadline } }
  | .awaitGate unit =>
    if w.names.opened.contains unit then { world := w, code := rest, flow := flow }
    else { world := w, code := i :: rest, flow := flow, wait := some { signals := [.gate unit] } }
  | .awaitExit s l =>
    if ((w.set? s).bind (·.loop? l)).all (·.cancelled) then
      { world := w, code := rest, flow := flow }
    else { world := w, code := i :: rest, flow := flow, wait := some { signals := [.exit s l] } }
  | .awaitToken t =>
    if w.isCancelled t then { world := w, code := rest, flow := flow }
    else { world := w, code := i :: rest, flow := flow, wait := some { signals := [.token t] } }
  | .need key args index kind =>
    match Argument.find? args index kind with
    | some a =>
      { world := w.emit ("arg " ++ key ++ " " ++ a.json ++ " of " ++ toString args.length)
        code := rest, flow := flow }
    | none =>
      { world := w, code := rest
        flow := .error (.fault ⟨"missing argument " ++ toString index, []⟩) }
  | .act who a =>
    let (w, code) := w.actionCode who a
    { world := w, code := code ++ rest, flow := flow }
  | .acted who verb _ =>
    { world := w.emit (who ++ " " ++ verb ++ ": ok"), code := rest, flow := .ok .ok }
  | .beat t =>
    let (w, flow) := w.beat t
    { world := w, code := rest, flow := flow }
  | .beginCall s request =>
    let (w, code) := w.beginCall s request
    { world := w, code := code ++ rest, flow := flow }
  | .pollCall s c =>
    let cancelled := w.parentCancelled s
    let (w, code, turn) := w.withSet s .wait fun set => set.poll c cancelled
    if mustWait turn then
      { world := w, code := i :: rest, flow := flow, wait := some { signals := [.call s c] } }
    else { world := w, code := code ++ callCode s c turn ++ rest, flow := flow }
  | .initTask s c t args =>
    let (w, code) := w.initCode t args
    { world := w, code := code ++ .initEnd s c :: rest, flow := flow }
  | .initEnd s c =>
    let cancelled := w.parentCancelled s
    let (w, code, turn) := w.withSet s .wait fun set => set.initialized c (.ok ()) cancelled
    { world := w, code := code ++ callCode s c turn ++ rest, flow := .ok .ok }
  | .unregister s t =>
    let (w, code, result) := w.withSet s (.ok ()) fun set => set.unregister (w.taskRef t)
    { world := w, code := code ++ callCode s 0 (.returned result) ++ rest, flow := flow }
  | .registerExtension s ext name options args =>
    match w.loadExtension ext name with
    | (w, .error e) =>
      { world := w, code := rest, flow := .error (.supervision (.extensionLoad e)) }
    | (w, .ok t) =>
      let request := .register (w.taskRef t) args options none none
      { world := w, code := .beginCall s request :: rest, flow := flow }
  | .pollLoop s l =>
    let now := w.now
    let (w, code, turn) := w.withSet s .ended fun set => set.pollLoop l now
    match turn with
    | .wait deadline =>
      { world := w, code := i :: rest, flow := flow
        wait := some { deadline := deadline, signals := [.exit s l] } }
    | turn => { world := w, code := code ++ w.loopCode s l turn ++ rest, flow := flow }
  | .runTask s l t =>
    let (w, code) := w.runCode s l t
    { world := w, code := code ++ .runEnd s l :: rest, flow := flow }
  | .runEnd s l =>
    let now := w.now
    let (w, code, turn) := w.withSet s .ended fun set => set.ran l now (.value ())
    { world := w, code := code ++ w.loopCode s l turn ++ rest, flow := .ok .ok }
  | .reported s l p =>
    let name := w.poolName p
    let (w, code) := w.onSet s fun set => set.reported l name (.ok ())
    { world := w, code := code ++ rest, flow := .ok .ok }
  | .destroyTask t =>
    let (w, code) := w.destroyCode t
    { world := w, code := code ++ rest, flow := flow }
  | .destroyEnd s task state reason =>
    let name := (w.set? s).elim "" (·.name)
    { world := w.log (TaskSet.teardownRecord name task state reason none), code := rest
      flow := flow }
  | .setNotices s notices =>
    let (w, code) := w.meetSet s notices
    { world := w, code := code ++ rest, flow := flow }
  | .submit p job =>
    let c := w.nextCaller
    let (w, submission) := { w with nextCaller := c + 1 }.withPool p (.refused .closed) fun pool =>
      pool.submit c job
    { world := w, code := submissionCode p c submission ++ rest, flow := flow }
  | .awaitCaller p c =>
    let (w, submission) := w.withPool p (.refused .closed) fun pool => pool.resume c
    match submission with
    | .parked =>
      { world := w, code := i :: rest, flow := flow, wait := some { signals := [.caller p c] } }
    | submission => { world := w, code := submissionCode p c submission ++ rest, flow := flow }
  | .pollWorker p x =>
    let (w, turn) := w.withPool p .ended fun pool => pool.pollWorker x
    match turn with
    | .start job =>
      let (w, code) := w.jobCode p x job
      { world := w, code := code ++ .unitEnd p x :: rest, flow := flow }
    | .wait =>
      { world := w, code := i :: rest, flow := flow, wait := some { signals := [.worker p x] } }
    | .ended => { world := w, code := rest, flow := flow }
  | .unitEnd p x =>
    let now := w.now
    { world := w.onPool p fun pool => pool.complete x now
      code := .pollWorker p x :: rest, flow := .ok .ok }
  | .pollScavenger p x =>
    let now := w.now
    let (w, next) := w.withPool p none fun pool => pool.pollScavenger x now
    match next with
    | some tick =>
      { world := w, code := i :: rest, flow := flow
        wait := some { deadline := tick, signals := [.scavenger p x] } }
    | none => { world := w, code := rest, flow := flow }
  | .release p => { world := w.onPool p Pool.release, code := rest, flow := flow }
  | .beginRelease p ms =>
    let now := w.now
    let (w, result) := w.withPool p (.error .closed) fun pool =>
      pool.beginRelease now (.ofMillis ms)
    match result with
    | .error e => { world := w, code := rest, flow := .error (.pool e) }
    | .ok wait => { world := w, code := .awaitRelease p wait :: rest, flow := flow }
  | .awaitRelease p wait =>
    match (w.pool? p).bind fun pool => pool.checkRelease wait w.now with
    | some result => { world := w, code := rest, flow := .ofPoolResult result }
    | none =>
      { world := w, code := i :: rest, flow := flow
        wait := some { deadline := w.now + Pool.releasePoll } }
  | .beginProcess script =>
    let (w, code) := w.beginProcess script
    { world := w, code := code ++ rest, flow := flow }
  | .continueProcess run phase =>
    let (w, code) := w.continueProcess run phase flow
    { world := w, code := code ++ rest, flow := .ok .ok }
  | .listen number t =>
    if w.isCancelled t then { world := w, code := rest, flow := flow }
    else
      { world := w, code := i :: rest, flow := flow
        wait := some { signals := [.system number, .token t] } }
  | .received number t =>
    { world := (w.log (Process.signalRecord number)).cancelToken t, code := rest, flow := flow }
  | .finish step =>
    { world := { w with finished := w.finished ++ [(step, flow.answer)] }, code := rest
      flow := .ok .ok }

/-- Carry out an instruction after code that has failed, or skip it. -/
def execFailed (w : World) (i : Instr) (rest : List Instr) (flow : Flow) (f : Failure) :
    Outcome :=
  match i with
  | .acted who verb propagate =>
    { world := w.emit (who ++ " " ++ verb ++ ": " ++ f.message), code := rest
      flow := if propagate then .error (.fault f.toFault) else .ok .ok }
  | .initEnd s c =>
    let cancelled := w.parentCancelled s
    let (w, code, turn) := w.withSet s .wait fun set =>
      set.initialized c (.error f.toFault) cancelled
    { world := w, code := code ++ callCode s c turn ++ rest, flow := .ok .ok }
  | .runEnd s l =>
    let now := w.now
    let (w, code, turn) := w.withSet s .ended fun set => set.ran l now (.fault f.toFault)
    { world := w, code := code ++ w.loopCode s l turn ++ rest, flow := .ok .ok }
  | .reported s l p =>
    let name := w.poolName p
    let result := match f with
      | .pool e => .error e
      | _ => .ok ()
    let (w, code) := w.onSet s fun set => set.reported l name result
    { world := w, code := code ++ rest, flow := .ok .ok }
  | .destroyEnd s task state reason => w.execNext (.destroyEnd s task state reason) rest (.ok .ok)
  | .unitEnd p x => w.execNext (.unitEnd p x) rest flow
  | .continueProcess run phase =>
    match f with
    | .supervision _ =>
      let (w, code) := w.continueProcess run phase flow
      { world := w, code := code ++ rest, flow := .ok .ok }
    | _ => { world := w, code := rest, flow := flow }
  | .finish step => w.execNext (.finish step) rest flow
  | _ => { world := w, code := rest, flow := flow }

/-- Carry out an instruction after code that has panicked, or skip it. -/
def execPanicked (w : World) (i : Instr) (rest : List Instr) (flow : Flow) (p : Payload) :
    Outcome :=
  match i with
  | .initEnd s c =>
    { world := (w.onSet s fun set => set.abandon c).1, code := rest, flow := flow }
  | .runEnd s l =>
    let now := w.now
    let (w, code, turn) := w.withSet s .ended fun set => set.ran l now (.panic p)
    { world := w, code := code ++ w.loopCode s l turn ++ rest, flow := .ok .ok }
  | .destroyEnd s task state reason =>
    let name := (w.set? s).elim "" (·.name)
    { world := w.log (TaskSet.teardownRecord name task state reason (some p)), code := rest
      flow := .ok .ok }
  | .unitEnd pool x =>
    { world := w.onPool pool fun q => q.crash x p, code := .pollWorker pool x :: rest
      flow := .ok .ok }
  | .continueProcess run _ =>
    { world := run.handlers.foldl removeFiber w, code := rest, flow := flow }
  | .finish step => w.execNext (.finish step) rest flow
  | _ => { world := w, code := rest, flow := flow }

/-- Carry out one instruction. -/
def exec (w : World) (i : Instr) (rest : List Instr) (flow : Flow) : Outcome :=
  match flow with
  | .ok _ => w.execNext i rest flow
  | .error f => w.execFailed i rest flow f
  | .panic p => w.execPanicked i rest flow p

/-- Carry out instructions until the code is at its end or has to wait, but no more than
`fuel`. -/
def run (fuel : Nat) (w : World) (code : List Instr) (flow : Flow) : Outcome :=
  match fuel, code with
  | 0, _ => { world := w, code := [], flow := flow }
  | _, [] => { world := w, code := [], flow := flow }
  | fuel + 1, i :: rest =>
    let outcome := w.exec i rest flow
    if outcome.wait.isSome then outcome
    else run fuel outcome.world outcome.code outcome.flow

end World

end Overseer.Simulation
