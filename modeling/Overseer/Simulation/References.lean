import Overseer.Simulation.World

/-!
# References

Which pools and sets are still referred to, by a name of the session, by one another, or by a
fiber. A pool or a set is dropped when the last reference to it is gone.
-/

namespace Overseer.Simulation

/-- The options of a registration that is asked for. -/
def requestOptions? {κ ξ : Type} : Request κ ξ → Option (RegisterOptions PoolId κ)
  | .register _ _ options _ _ => some options
  | _ => none

/-- The task of a registration that is asked for. -/
def requestTask? {κ ξ : Type} : Request κ ξ → Option TaskId
  | .register task _ _ _ _ => some task.id
  | _ => none

namespace Instr

/-- The pools that an instruction keeps alive. -/
def pools : Instr → List PoolId
  | submit p _ => [p]
  | awaitCaller p _ => [p]
  | reported _ _ p => [p]
  | release p => [p]
  | beginRelease p _ => [p]
  | awaitRelease p _ => [p]
  | beginCall _ request => ((requestOptions? request).bind (·.pool)).toList
  | registerExtension _ _ _ options _ => options.pool.toList
  | continueProcess run _ => run.process.pool.toList
  | _ => []

/-- The sets that an instruction keeps alive. -/
def sets : Instr → List SetId
  | beginCall s _ => [s]
  | pollCall s _ => [s]
  | initTask s _ _ _ => [s]
  | initEnd s _ => [s]
  | unregister s _ => [s]
  | registerExtension s _ _ _ _ => [s]
  | reported s _ _ => [s]
  | continueProcess run _ => [run.set]
  | _ => []

/-- The tasks that an instruction keeps alive. -/
def tasks : Instr → List TaskId
  | beginCall _ request => (requestTask? request).toList
  | initTask _ _ t _ => [t]
  | runTask _ _ t => [t]
  | _ => []

end Instr

namespace World

/-- The instructions that are left to be carried out. -/
def pending (w : World) : List Instr := w.fibers.flatMap (·.code)

/-- The sets that were not dropped. -/
def liveSets (w : World) : List SetId :=
  (List.range w.sets.size).filter fun s => w.sets[s]?.any fun x => !x.set.dropped

/-- The pools that were not dropped. -/
def livePools (w : World) : List PoolId :=
  (List.range w.pools.size).filter fun p => w.pools[p]?.any fun x => !x.pool.dropped

/-- The registrations of a set and of the calls on it. -/
def registrations (set : TaskSet Callback (Option RecoveryScript)) :
    List (Registration Callback (Option RecoveryScript)) :=
  set.registry ++ set.calls.filterMap fun c => c.phase.registration?

/-- The tasks that are referred to. -/
def heldTasks (w : World) : List TaskId :=
  w.names.keys.map (·.2)
    ++ w.liveSets.flatMap (fun s => (w.set? s).elim [] fun set =>
        (registrations set).map (·.task.id))
    ++ w.sets.toList.flatMap (fun x =>
        (x.set.loops.filter fun l => l.phase != .ended).map (·.task.id))
    ++ w.pending.flatMap Instr.tasks

/-- The sets that tasks own. -/
def ownedSets (w : World) (held : List TaskId) : List SetId :=
  held.filterMap fun t =>
    match w.body? t with
    | some (.heartbeat stages _) => some stages
    | _ => none

/-- Is every pool and every set known to the session by a name? Then nothing is lost. -/
def allNamed (w : World) : Bool :=
  (w.liveSets.all fun s =>
    w.names.sups.any (·.2 == s) || w.names.pipes.any (·.2.1 == s))
    && w.livePools.all fun p => p == w.defaultPool || w.names.pools.any (·.2 == p)

/-- A set that nothing refers to any more. -/
def lostSet? (w : World) : Option SetId :=
  let held := w.names.sups.map (·.2) ++ w.names.pipes.map (·.2.1)
    ++ w.pending.flatMap Instr.sets ++ w.ownedSets w.heldTasks
  w.liveSets.find? fun s => !held.contains s

/-- A pool that nothing refers to any more. -/
def lostPool? (w : World) : Option PoolId :=
  let held := w.defaultPool :: w.names.pools.map (·.2) ++ w.pending.flatMap Instr.pools
    ++ w.liveSets.flatMap fun s => (w.set? s).elim [] fun set =>
        set.pool.toList ++ (registrations set).filterMap (·.options.pool)
  w.livePools.find? fun p => !held.contains p

end World

end Overseer.Simulation
