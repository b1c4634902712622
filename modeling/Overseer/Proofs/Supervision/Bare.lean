import Overseer.Proofs.Supervision.Scene

/-!
# What only a failure looks at

The callback of a registration and its pool are what happens when a run of its task has failed.
`bare a` takes them away from what is registered of the task `a`, and from what is about to be.
Nothing but the end of a run tells a set from the bare one (`perform_bare`) : there is one such
equation for each function of the set. No run ends in a set that has not started, so two histories
that differ in nothing else lead to sets that start alike (`SameBut.bare_eq`).
-/

namespace Overseer

variable {κ ξ : Type}

/-- The options with or without a callback and a pool. -/
def RegisterOptions.bare (b : Bool) (o : RegisterOptions PoolId κ) : RegisterOptions PoolId κ :=
  { o with onError := if b then none else o.onError, pool := if b then none else o.pool }

/-- The registration without its callback and its pool, if it is one of `a`. -/
def Registration.bare (a : TaskId) (r : Registration κ ξ) : Registration κ ξ :=
  { r with options := r.options.bare (r.task.id == a) }

/-- The phase with what the call is about to enter bare. -/
def CallPhase.bare (a : TaskId) : CallPhase κ ξ → CallPhase κ ξ
  | .admitting r => .admitting (r.bare a)
  | .initializing r => .initializing (r.bare a)
  | .readmitting r => .readmitting (r.bare a)
  | p => p

def Request.bare (a : TaskId) : Request κ ξ → Request κ ξ
  | .register task args options order extra =>
    .register task args (options.bare (task.id == a)) order extra
  | request => request

def SetEvent.bare (a : TaskId) : SetEvent κ ξ → SetEvent κ ξ
  | .begin c request b => .begin c (request.bare a) b
  | e => e

theorem Registration.bare_of_ne {a : TaskId} {r : Registration κ ξ} (hr : r.task.id ≠ a) :
    r.bare a = r := by
  have hno : (r.task.id == a) = false := beq_false_of_ne hr
  unfold Registration.bare
  rw [hno]
  rfl

/-! ## Registries -/

namespace Registry

variable (a : TaskId) (reg : Registry κ ξ)

def bare : Registry κ ξ := List.map (Registration.bare a) reg

theorem lookup?_bare (id : TaskId) :
    (reg.bare a).lookup? id = (reg.lookup? id).map (Registration.bare a) :=
  List.find?_map ..

theorem has_bare (id : TaskId) : (reg.bare a).has id = reg.has id := List.any_map ..

theorem hasOrder_bare (order : Nat) : (reg.bare a).hasOrder order = reg.hasOrder order :=
  List.any_map ..

theorem tasks_bare : (reg.bare a).tasks = reg.tasks := List.map_map ..

theorem insert_bare (r : Registration κ ξ) :
    (reg.bare a).insert (r.bare a) = (reg.insert r).bare a :=
  (map_insert (f := Registration.bare a) fun _ => rfl).symm

theorem remove_bare (id : TaskId) : (reg.bare a).remove id = (reg.remove id).bare a :=
  List.filter_map ..

theorem modify_bare {f : Registration κ ξ → Registration κ ξ}
    (hf : ∀ r, f (r.bare a) = (f r).bare a) (id : TaskId) :
    (reg.bare a).modify id f = (reg.modify id f).bare a := by
  unfold modify bare
  rw [List.map_map, List.map_map]
  refine List.map_congr_left fun r _ => ?_
  show (if r.task.id == id then f (r.bare a) else r.bare a) = _
  rw [hf, Function.comp, apply_ite (Registration.bare a)]

theorem schedule_bare : (reg.bare a).schedule = reg.schedule := by
  have hturns : (reg.bare a).turns = reg.turns := by
    simp only [turns, bare, List.zipIdx_map, List.flatMap_map]
    rfl
  have hplaces : (reg.bare a).places = reg.places := by
    unfold places
    rw [hturns, bare, List.length_map]
  unfold schedule
  rw [hplaces]
  refine List.filterMap_congr fun i _ => ?_
  unfold bare
  rw [List.getElem?_map, Option.map_map]
  rfl

end Registry

namespace TaskSet

variable (a : TaskId) (s : TaskSet κ ξ) (c : CallId)

/-- The set without the callback and the pool of `a`. -/
def bare : TaskSet κ ξ :=
  { s with
    registry := s.registry.bare a
    calls := s.calls.map fun x => { x with phase := x.phase.bare a } }

/-- What comes of an event of the set without the callback and the pool of `a`. -/
def bareTurn {τ : Type} (x : TaskSet κ ξ × τ) : TaskSet κ ξ × τ := (x.1.bare a, x.2)

/-! ## Locks and calls -/

theorem call?_bare : (s.bare a).call? c =
    (s.call? c).map fun x => { x with phase := x.phase.bare a } :=
  List.find?_map ..

theorem setPhase_bare (p : CallPhase κ ξ) :
    (s.bare a).setPhase c (p.bare a) = (s.setPhase c p).bare a := by
  unfold setPhase bare
  simp only [List.map_map, TaskSet.mk.injEq, true_and, and_true]
  refine List.map_congr_left fun x _ => ?_
  simp only [Function.comp]
  split <;> rfl

theorem addCall_bare (p : CallPhase κ ξ) :
    (s.bare a).addCall c (p.bare a) = (s.addCall c p).bare a := by
  unfold addCall bare
  simp only [List.map_append, List.map_cons, List.map_nil]

theorem wakeHolder_bare (h : Option CallId) :
    (s.bare a).wakeHolder h = (s.wakeHolder h).bare a := by
  cases h <;> rfl

theorem leaveLifecycle_bare : (s.bare a).leaveLifecycle c = (s.leaveLifecycle c).bare a :=
  wakeHolder_bare a { s with lifecycleLock := (s.lifecycleLock.leave c).1 } _

theorem leaveStartup_bare : (s.bare a).leaveStartup c = (s.leaveStartup c).bare a :=
  wakeHolder_bare a { s with startupLock := (s.startupLock.leave c).1 } _

theorem endCall_bare : (s.bare a).endCall c = (s.endCall c).bare a := by
  have hcalls : { s.bare a with calls := (s.bare a).calls.filter (·.id != c) } =
      ({ s with calls := s.calls.filter (·.id != c) } : TaskSet κ ξ).bare a := by
    unfold bare
    simp only [List.filter_map]
    rfl
  unfold endCall
  rw [hcalls, leaveLifecycle_bare, leaveStartup_bare]

theorem finish_bare (result : Except SupervisionError Unit) :
    (s.bare a).finish c result = bareTurn a (s.finish c result) := by
  unfold finish
  rw [endCall_bare]
  rfl

/-! ## Registering and startup -/

theorem refusal?_bare (r : Registration κ ξ) :
    (s.bare a).refusal? (r.bare a) = s.refusal? r := by
  unfold refusal?
  rw [show (s.bare a).registry = s.registry.bare a from rfl]
  simp only [Registry.has_bare, Registry.hasOrder_bare]
  rfl

theorem startLoop_bare (id : TaskId) : (s.bare a).startLoop id = (s.startLoop id).bare a := by
  unfold startLoop
  rw [show (s.bare a).registry = s.registry.bare a from rfl, Registry.lookup?_bare]
  cases s.registry.lookup? id with
  | none => rfl
  | some r =>
    simp only [Option.map_some]
    rw [Registry.modify_bare]
    · rfl
    · exact fun _ => rfl

theorem foldl_bare {α : Type} {f : TaskSet κ ξ → α → TaskSet κ ξ} {g : α → α} {l : List α}
    (hf : ∀ x ∈ l, ∀ s, f (s.bare a) (g x) = (f s x).bare a) :
    (l.map g).foldl f (s.bare a) = (l.foldl f s).bare a := by
  induction l generalizing s with
  | nil => rfl
  | cons x l ih =>
    rw [List.map_cons, List.foldl_cons, List.foldl_cons, hf x List.mem_cons_self,
      ih _ fun y hy => hf y (List.mem_cons_of_mem x hy)]

theorem startLoops_bare (ids : List TaskId) :
    ids.foldl startLoop (s.bare a) = (ids.foldl startLoop s).bare a := by
  have hfold := foldl_bare a s (l := ids) (g := fun id => id)
    fun id _ s => startLoop_bare a s id
  rwa [List.map_id'] at hfold

theorem enroll_bare (r : Registration κ ξ) :
    (s.bare a).enroll (r.bare a) = (s.enroll r).bare a := by
  have hin : { s.bare a with registry := (s.registry.bare a).insert (r.bare a) } =
      ({ s with registry := s.registry.insert r } : TaskSet κ ξ).bare a := by
    rw [Registry.insert_bare]
    rfl
  unfold enroll
  rw [show (s.bare a).registry = s.registry.bare a from rfl, hin]
  refine Eq.trans ?_ (apply_ite (bare a) _ _ _).symm
  rw [← startLoop_bare]
  rfl

theorem consider_bare (r : Registration κ ξ) :
    (s.bare a).consider c (r.bare a) = bareTurn a (s.consider c r) := by
  unfold consider
  rw [refusal?_bare]
  cases s.refusal? r with
  | some e => exact finish_bare a s c _
  | none =>
    refine Eq.trans ?_ (apply_ite (bareTurn a) _ _ _).symm
    rw [enroll_bare, finish_bare, leaveLifecycle_bare]
    have hphase := setPhase_bare a (s.leaveLifecycle c) c (.initializing r)
    rw [show CallPhase.initializing (r.bare a) = (CallPhase.initializing r).bare a from rfl, hphase]
    rfl

theorem reconsider_bare (r : Registration κ ξ) :
    (s.bare a).reconsider c (r.bare a) = bareTurn a (s.reconsider c r) := by
  unfold reconsider
  rw [refusal?_bare]
  cases s.refusal? r with
  | some e => exact finish_bare a (s.tearDown r .stopped) c _
  | none =>
    dsimp only
    rw [enroll_bare, finish_bare]

theorem conclude_bare (b : Bool) :
    (s.bare a).conclude c b = bareTurn a (s.conclude c b) := by
  by_cases hl : s.lifecycle == .terminated
  · unfold conclude
    rw [if_pos hl, if_pos (c := ((s.bare a).lifecycle == .terminated) = true) hl, finish_bare]
  · unfold conclude
    rw [if_neg hl, if_neg (c := ((s.bare a).lifecycle == .terminated) = true) hl,
      show (s.bare a).registry = s.registry.bare a from rfl, Registry.tasks_bare]
    generalize s.registry.tasks.map (·.id) = ids
    have hstart := startLoops_bare a
      ({ s with isRooted := true, rootCancelled := b }.notify .rooted) ids
    refine Eq.trans ?_ (finish_bare a _ c _)
    exact congrArg (fun t : TaskSet κ ξ => ({ t.record .debug "Started supervised tasks."
      [("tasks", .number ids.length)] with lifecycle := .started } : TaskSet κ ξ).finish c
        (.ok ())) hstart

theorem prepare_bare (next : Entry) (rest : List Entry) :
    (s.bare a).prepare c next rest = bareTurn a (s.prepare c next rest) := by
  unfold prepare
  refine Eq.trans ?_ (apply_ite (bareTurn a) _ _ _).symm
  rw [finish_bare, leaveLifecycle_bare]
  have hphase := setPhase_bare a (s.leaveLifecycle c) c (.preparing next rest)
  rw [show CallPhase.preparing next rest = (CallPhase.preparing next rest).bare a from rfl, hphase]
  rfl

/-- What a call does if it holds the lock, or else waits. -/
theorem ite_bare {b : Bool} {x y : TaskSet κ ξ × CallTurn} (h : y = bareTurn a x) :
    (if b then y else (s.bare a, CallTurn.wait)) = bareTurn a (if b then x else (s, .wait)) := by
  rw [h, apply_ite (bareTurn a)]
  rfl

theorem goOn_bare (es : List Entry) (b : Bool) :
    (s.bare a).goOn c es b = bareTurn a (s.goOn c es b) := by
  have hlock : (s.bare a).lockLifecycle c = (s.lockLifecycle c).bare a := rfl
  unfold goOn
  rw [hlock]
  cases es with
  | nil =>
    have hphase : ((s.lockLifecycle c).bare a).setPhase c .concluding = _ :=
      setPhase_bare a (s.lockLifecycle c) c .concluding
    dsimp only
    rw [hphase]
    exact ite_bare a _ (conclude_bare a _ c b)
  | cons next rest =>
    have hphase : ((s.lockLifecycle c).bare a).setPhase c (.checking next rest) = _ :=
      setPhase_bare a (s.lockLifecycle c) c (.checking next rest)
    dsimp only
    rw [hphase]
    exact ite_bare a _ (prepare_bare a _ c next rest)

theorem openUp_bare (b : Bool) : (s.bare a).openUp c b = bareTurn a (s.openUp c b) := by
  unfold openUp
  rw [show (s.bare a).lifecycle = s.lifecycle from rfl]
  cases s.lifecycle with
  | pending =>
    have hleave := leaveLifecycle_bare a { s with lifecycle := .starting } c
    dsimp only
    rw [show (s.bare a).registry = s.registry.bare a from rfl, Registry.schedule_bare, ← goOn_bare,
      ← hleave]
    rfl
  | _ => exact finish_bare a s c _

theorem giveUp_bare (current : Entry) (source : Fault) :
    (s.bare a).giveUp c current source = bareTurn a (s.giveUp c current source) := by
  unfold giveUp
  rw [← finish_bare, apply_ite (bare a)]
  rfl

/-! ## Leaving -/

theorem cancelLoop_bare (l : LoopId) : (s.bare a).cancelLoop l = (s.cancelLoop l).bare a := by
  unfold cancelLoop
  rw [apply_ite (bare a)]
  rfl

theorem cancelRoot_bare : (s.bare a).cancelRoot = s.cancelRoot.bare a := by
  have hfold := foldl_bare a s (l := s.loops.reverse) (f := fun s x => s.cancelLoop x.id)
    (g := fun x => x) fun x _ s => cancelLoop_bare a s x.id
  rw [List.map_id'] at hfold
  unfold cancelRoot
  rw [apply_ite (bare a), show (s.bare a).loops = s.loops from rfl]
  dsimp only
  rw [hfold]
  rfl

theorem cancelRoot_if_bare :
    (if (s.bare a).lifecycle == .started then (s.bare a).cancelRoot else s.bare a) =
      (if s.lifecycle == .started then s.cancelRoot else s).bare a := by
  rw [cancelRoot_bare, apply_ite (bare a)]
  rfl

theorem isClaimed_bare (l : LoopId) : (s.bare a).isClaimed l = s.isClaimed l := List.any_map ..

theorem forgetLoop_bare (l : LoopId) : (s.bare a).forgetLoop l = (s.forgetLoop l).bare a := by
  unfold forgetLoop
  rw [show (s.bare a).loop? l = s.loop? l from rfl, isClaimed_bare]
  cases s.loop? l with
  | none => rfl
  | some x =>
    dsimp only
    rw [apply_ite (bare a)]
    rfl

theorem forgetRoot_bare : (s.bare a).forgetRoot = s.forgetRoot.bare a := by
  unfold forgetRoot
  rw [apply_ite (bare a)]
  rfl

theorem retire_bare (r : Registration κ ξ) (why : Departure) :
    (s.bare a).retire (r.bare a) why = (s.retire r why).bare a := by
  unfold retire
  rw [show (r.bare a).loop = r.loop from rfl]
  cases r.loop with
  | none => rfl
  | some l =>
    dsimp only
    rw [cancelLoop_bare, ← forgetLoop_bare]
    rfl

theorem cleared_bare : (s.bare a).cleared = s.cleared.bare a := by
  unfold cleared
  rw [cancelRoot_if_bare]
  generalize (if s.lifecycle == .started then s.cancelRoot else s) = t
  have hfold := fun u : TaskSet κ ξ => foldl_bare a u (l := t.registry)
    (f := fun s r => s.retire r .destroyed) fun r _ s => retire_bare a s r .destroyed
  dsimp only
  rw [show (t.bare a).registry = t.registry.map (Registration.bare a) from rfl, List.length_map,
    List.isEmpty_map, ← forgetRoot_bare, ← hfold, apply_ite (bare a)]
  rfl

theorem demolish_bare : (s.bare a).demolish c = bareTurn a (s.demolish c) := by
  have hphase : (s.cleared.bare a).setPhase c .draining = _ :=
    setPhase_bare a s.cleared c .draining
  rw [demolish_eq, demolish_eq, cleared_bare, finish_bare, hphase, apply_ite (bareTurn a)]
  rfl

theorem unregister_bare (task : TaskRef) :
    (s.bare a).unregister task = bareTurn a (s.unregister task) := by
  have hout : { s.bare a with registry := (s.registry.bare a).remove task.id } =
      ({ s with registry := s.registry.remove task.id } : TaskSet κ ξ).bare a := by
    rw [Registry.remove_bare]
    rfl
  unfold unregister
  rw [show (s.bare a).registry = s.registry.bare a from rfl, Registry.lookup?_bare, hout]
  cases s.registry.lookup? task.id with
  | none => rfl
  | some r =>
    simp only [Option.map_some]
    rw [retire_bare]
    rfl

theorem drop_bare : (s.bare a).drop = s.drop.bare a := by
  unfold drop
  rw [cancelRoot_if_bare]
  generalize (if s.lifecycle == .started then s.cancelRoot else s) = t
  let u := { t with registry := [], dropped := true }
  have htear := foldl_bare a u (l := t.registry) (f := fun s r => s.tearDown r .destroyed)
    (g := Registration.bare a) fun _ _ _ => rfl
  have hforget := foldl_bare a (t.registry.foldl (fun s r => s.tearDown r .destroyed) u)
    (l := t.registry) (f := fun s r => r.loop.elim s s.forgetLoop) (g := Registration.bare a)
    fun r _ s => by
      show r.loop.elim (s.bare a) (s.bare a).forgetLoop = _
      cases r.loop with
      | none => rfl
      | some l => exact forgetLoop_bare a s l
  dsimp only
  rw [← forgetRoot_bare, ← hforget, ← htear]
  rfl

/-! ## Turns of loops -/

theorem wakeDraining_bare : (s.bare a).wakeDraining = s.wakeDraining.bare a := by
  have hdraining : ∀ p : CallPhase κ ξ, (p.bare a).isDraining = p.isDraining := fun p => by
    cases p <;> rfl
  have hcalls : (s.bare a).calls.filter (·.phase.isDraining) =
      (s.calls.filter (·.phase.isDraining)).map
        fun x => { x with phase := x.phase.bare a } := by
    unfold bare
    simp only [List.filter_map, Function.comp_def, hdraining]
  have hfold := foldl_bare a s (l := s.calls.filter (·.phase.isDraining))
    (f := fun s x => s.notify (.wakeCall x.id))
    (g := fun x => { x with phase := x.phase.bare a }) fun _ _ _ => rfl
  unfold wakeDraining
  rw [hcalls, hfold, apply_ite (bare a)]
  rfl

theorem endLoop_bare (l : LoopId) : (s.bare a).endLoop l = (s.endLoop l).bare a := by
  unfold endLoop
  rw [← forgetRoot_bare, ← forgetLoop_bare, ← wakeDraining_bare]
  rfl

theorem rest_bare (l : LoopId) (now : Nat) :
    (s.bare a).rest l now = bareTurn a (s.rest l now) := by
  unfold rest
  rw [show (s.bare a).loop? l = s.loop? l from rfl]
  cases s.loop? l with
  | none => rfl
  | some x =>
    dsimp only
    rw [endLoop_bare, apply_ite (bareTurn a)]
    rfl

theorem pollLoop_bare (l : LoopId) (now : Nat) :
    (s.bare a).pollLoop l now = bareTurn a (s.pollLoop l now) := by
  unfold pollLoop
  rw [show (s.bare a).loop? l = s.loop? l from rfl]
  cases s.loop? l with
  | none => rfl
  | some x =>
    dsimp only
    cases x.phase with
    | spawned => exact rest_bare a (s.loopRecord .debug "Task loop started." _) l now
    | waiting deadline =>
      dsimp only
      rw [endLoop_bare, apply_ite (bareTurn a), apply_ite (bareTurn a)]
      rfl
    | _ => rfl

theorem reported_bare (l : LoopId) (poolName : String) (result : Except PoolError Unit) :
    (s.bare a).reported l poolName result = (s.reported l poolName result).bare a := by
  cases result with
  | ok _ => exact endLoop_bare a s l
  | error e => exact endLoop_bare a (s.record .error _ _) l

theorem killLoop_bare (l : LoopId) : (s.bare a).killLoop l = (s.killLoop l).bare a := by
  unfold killLoop
  rw [show (s.bare a).loop? l = s.loop? l from rfl]
  cases s.loop? l with
  | none => rfl
  | some x =>
    dsimp only
    rw [endLoop_bare, apply_ite (bare a)]

/-! ## Turns of calls, and events -/

theorem poll_bare (b : Bool) : (s.bare a).poll c b = bareTurn a (s.poll c b) := by
  unfold poll
  rw [call?_bare]
  cases s.call? c with
  | none => rfl
  | some x =>
    simp only [Option.map_some]
    cases x.phase with
    | queued =>
      have hphase : (s.bare a).setPhase c .opening = _ := setPhase_bare a s c .opening
      simp only [CallPhase.bare, hphase]
      let t := (s.setPhase c .opening).lockLifecycle c
      exact ite_bare a s (ite_bare a t (openUp_bare a t c b))
    | draining => exact ite_bare a s (finish_bare a s c _)
    | initializing r => rfl
    | preparing current rest => rfl
    | admitting r => exact ite_bare a s (consider_bare a s c r)
    | readmitting r => exact ite_bare a s (reconsider_bare a s c r)
    | opening => exact ite_bare a s (openUp_bare a s c b)
    | checking next rest => exact ite_bare a s (prepare_bare a s c next rest)
    | aborting current source => exact ite_bare a s (giveUp_bare a s c current source)
    | concluding => exact ite_bare a s (conclude_bare a s c b)
    | demolishing => exact ite_bare a s (demolish_bare a s c)

theorem begin_bare (request : Request κ ξ) (b : Bool) :
    (s.bare a).begin c (request.bare a) b = bareTurn a (s.begin c request b) := by
  cases request with
  | register task args options order extra =>
    let r : Registration κ ξ := {
      ticket := c, task := task, args := args, options := options, order := order,
      extra := extra }
    have hcall := addCall_bare a s c (.admitting r)
    refine Eq.trans ?_ (poll_bare a ((s.addCall c (.admitting r)).lockLifecycle c) c b)
    rw [show ((s.addCall c (.admitting r)).lockLifecycle c).bare a =
      ((s.addCall c (.admitting r)).bare a).lockLifecycle c from rfl, ← hcall]
    rfl
  | init =>
    have hcall := addCall_bare a s c .queued
    refine Eq.trans ?_ (poll_bare a
      { s.addCall c .queued with startupLock := s.startupLock.acquire c } c b)
    exact congrArg (fun t : TaskSet κ ξ =>
      { t with startupLock := s.startupLock.acquire c }.poll c b) hcall
  | destroy =>
    have hcall := addCall_bare a s c .demolishing
    refine Eq.trans ?_ (poll_bare a ((s.addCall c .demolishing).lockLifecycle c) c b)
    exact congrArg (fun t : TaskSet κ ξ => (t.lockLifecycle c).poll c b) hcall

theorem initialized_bare (result : Except Fault Unit) (b : Bool) :
    (s.bare a).initialized c result b = bareTurn a (s.initialized c result b) := by
  unfold initialized
  rw [call?_bare]
  cases s.call? c with
  | none => rfl
  | some x =>
    simp only [Option.map_some]
    cases x.phase with
    | initializing r =>
      cases result with
      | error source => exact finish_bare a s c _
      | ok _ =>
        have hphase := setPhase_bare a s c (.readmitting { r with state := .initialized })
        refine Eq.trans ?_ (poll_bare a ((s.setPhase c
          (.readmitting { r with state := .initialized })).lockLifecycle c) c b)
        exact congrArg (fun t : TaskSet κ ξ => (t.lockLifecycle c).poll c b) hphase
    | preparing current rest =>
      cases result with
      | error source =>
        let u := s.record .error "Task failed to initialize. Aborting startup."
          [("task", .text current.task.name), ("error", .text source.text)]
        have hphase := setPhase_bare a u c (.aborting current source)
        refine Eq.trans ?_
          (poll_bare a ((u.setPhase c (.aborting current source)).lockLifecycle c) c b)
        exact congrArg (fun t : TaskSet κ ξ => (t.lockLifecycle c).poll c b) hphase
      | ok _ =>
        let f (r : Registration κ ξ) : Registration κ ξ := { r with state := .initialized }
        have hmark := Registry.modify_bare a s.registry (f := f) (fun _ => rfl) current.task.id
        refine Eq.trans ?_ (goOn_bare a
          { s with registry := s.registry.modify current.task.id f } c rest b)
        exact congrArg (fun g => { s.bare a with registry := g }.goOn c rest b) hmark
    | _ => rfl

theorem abandon_bare : (s.bare a).abandon c = (s.abandon c).bare a := by
  have hany : (s.bare a).calls.any (·.id == c) = s.calls.any (·.id == c) := List.any_map ..
  unfold abandon
  rw [hany, endCall_bare, apply_ite (bare a)]

/-- Only the end of a run looks at the callback of a registration, and at its pool. -/
theorem perform_bare (e : SetEvent κ ξ) (he : ∀ l now ending, e ≠ .ran l now ending) :
    (s.bare a).perform (e.bare a) = bareTurn a (s.perform e) := by
  cases e with
  | begin c request b =>
    show (((s.bare a).begin c (request.bare a) b).1, SetAnswer.call _) = _
    rw [begin_bare]
    rfl
  | poll c b =>
    show (((s.bare a).poll c b).1, SetAnswer.call _) = _
    rw [poll_bare]
    rfl
  | initialized c result b =>
    show (((s.bare a).initialized c result b).1, SetAnswer.call _) = _
    rw [initialized_bare]
    rfl
  | abandon c => exact congrArg (·, SetAnswer.done) (abandon_bare a s c)
  | unregister task =>
    show (((s.bare a).unregister task).1, SetAnswer.result _) = _
    rw [unregister_bare]
    rfl
  | pollLoop l now =>
    show (((s.bare a).pollLoop l now).1, SetAnswer.loop _) = _
    rw [pollLoop_bare]
    rfl
  | ran l now ending => exact absurd rfl (he l now ending)
  | reported l poolName result =>
    exact congrArg (·, SetAnswer.done) (reported_bare a s l poolName result)
  | killLoop l => exact congrArg (·, SetAnswer.done) (killLoop_bare a s l)
  | cancelRoot => exact congrArg (·, SetAnswer.done) (cancelRoot_bare a s)
  | drop => exact congrArg (·, SetAnswer.done) (drop_bare a s)

/-! ## Scenes and histories -/

/-- The other tasks know of neither. -/
theorem scene_bare : (s.bare a).scene a = s.scene a := by
  have hregistry : (s.bare a).registry.others a = s.registry.others a := by
    show (s.registry.bare a).others a = _
    unfold Registry.others
    rw [Registry.remove_bare]
    refine (congrArg (List.map Registration.unlooped) ?_ :)
    refine (List.map_congr_left fun r hr => ?_).trans (List.map_id' _)
    exact Registration.bare_of_ne (by simpa [Registry.remove] using (List.mem_filter.1 hr).2)
  have harriving : (s.bare a).arriving a = s.arriving a := by
    have hphase : ∀ p : CallPhase κ ξ,
        (p.bare a).arriving? = p.arriving?.map (Registration.bare a) := fun p => by
      cases p <;> rfl
    funext c
    unfold arriving
    rw [call?_bare]
    cases s.call? c with
    | none => rfl
    | some x =>
      simp only [Option.map_some, Option.bind_some, hphase]
      cases x.phase.arriving? with
      | none => rfl
      | some r =>
        by_cases hr : r.task.id = a
        · simp [Option.filter, Registration.bare, hr]
        · rw [Option.map_some, Registration.bare_of_ne hr]
  unfold scene
  rw [hregistry, harriving]
  rfl

variable {a} {s s' : TaskSet κ ξ} {h h' : List (SetOccurrence κ ξ)}

/-- The same happens to the same set, but for the callback of `a` and its pool. -/
structure SameBut (a : TaskId) (h h' : List (SetOccurrence κ ξ)) : Prop where
  set : h.head?.map (fun o => (o.before.name, o.before.pool)) =
    h'.head?.map fun o => (o.before.name, o.before.pool)
  events : h.map (·.event.bare a) = h'.map (·.event.bare a)

/-- No run ends in a set that has not started. -/
theorem not_ran_of_unstarted (hrun : (setSystem κ ξ).Run h s) (hl : s.lifecycle ≠ .terminated)
    (hno : ∀ o ∈ h, o.before.lifecycle ≠ .started) :
    ∀ o ∈ h, ∀ l now ending, o.event ≠ .ran l now ending := by
  induction hrun with
  | start _ => exact fun o ho => absurd ho List.not_mem_nil
  | @next h s e hrun hall ih =>
    have hs := sound_of_run hrun
    have hopen : s.lifecycle ≠ .terminated := by
      obtain ⟨d, hcourse, -⟩ := course_of_perform hs hall
      exact fun hterminated => hl (hcourse.terminated ((lifecycle_entered s e).trans hterminated))
    intro o ho
    rcases List.mem_append.1 ho with ho | ho
    · exact ih hopen (fun o ho => hno o (List.mem_append_left _ ho)) o ho
    · obtain rfl := List.mem_singleton.1 ho
      have hloops := hs.loops_eq_nil (hno ⟨s, e⟩ (List.mem_append_right h ho)) hopen
      rintro l now ending rfl
      have hall : allows h s (.ran l now ending) = true := hall
      obtain ⟨x, hx, -⟩ := allows_ran.1 hall
      simp [hloops] at hx

theorem bare_eq_foldl (hrun : (setSystem κ ξ).Run h s)
    (hno : ∀ o ∈ h, ∀ l now ending, o.event ≠ .ran l now ending) : ∃ s₀ : TaskSet κ ξ,
      (setSystem κ ξ).starts s₀ ∧ (∀ o ∈ h.head?, o.before = s₀) ∧ s.bare a =
        (h.map (·.event.bare a)).foldl (fun s e => ((setSystem κ ξ).happen s e).1)
          (s₀.bare a) := by
  obtain ⟨s₀, hstart, hfirst, hlast⟩ := hrun.eq_foldl
  refine ⟨s₀, hstart, hfirst, ?_⟩
  have hfold := foldl_bare a s₀ (l := h.map (·.event))
    (f := fun s e => ((setSystem κ ξ).happen s e).1) (g := SetEvent.bare a) fun e he s => by
      obtain ⟨o, ho, rfl⟩ := List.mem_map.1 he
      have hperform := perform_bare a s o.event (hno o ho)
      exact congrArg (fun x => x.1.collect.2) hperform
  rw [hlast, ← hfold, List.map_map]
  rfl

/-- Up to the start of a set, nothing depends on the callback of `a` and its pool. -/
theorem SameBut.bare_eq (hsame : SameBut a h h') (hrun : (setSystem κ ξ).Run h s)
    (hrun' : (setSystem κ ξ).Run h' s') (hne : h ≠ []) (hl : s.lifecycle ≠ .terminated)
    (hno : ∀ o ∈ h, o.before.lifecycle ≠ .started) : s.bare a = s'.bare a := by
  have hnot := not_ran_of_unstarted hrun hl hno
  have hnot' : ∀ o ∈ h', ∀ l now ending, o.event ≠ .ran l now ending := by
    intro o' ho' l now ending he
    have hmem : o'.event.bare a ∈ h.map (·.event.bare a) :=
      hsame.events ▸ List.mem_map_of_mem (f := (·.event.bare a)) ho'
    obtain ⟨o, ho, heq⟩ := List.mem_map.1 hmem
    rw [he] at heq
    cases hevent : o.event with
    | ran l now ending => exact hnot o ho l now ending hevent
    | _ => simp [hevent, SetEvent.bare] at heq
  obtain ⟨s₀, ⟨name, pool, hs₀⟩, hfirst, heq⟩ := bare_eq_foldl (a := a) hrun hnot
  obtain ⟨s₀', ⟨name', pool', hs₀'⟩, hfirst', heq'⟩ := bare_eq_foldl (a := a) hrun' hnot'
  have hstart : s₀ = s₀' := by
    obtain ⟨o, h, rfl⟩ := List.exists_cons_of_ne_nil hne
    have hset := hsame.set
    cases h' with
    | nil => contradiction
    | cons o' h' =>
      have hpair : (o.before.name, o.before.pool) = (o'.before.name, o'.before.pool) :=
        Option.some.inj hset
      rw [hfirst o rfl, hfirst' o' rfl, hs₀, hs₀'] at hpair
      obtain ⟨rfl, rfl⟩ := Prod.mk.inj hpair
      rw [hs₀, hs₀']
  rw [heq, heq', hsame.events, hstart]

end TaskSet

end Overseer
