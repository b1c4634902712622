import Overseer.Proofs.Supervision.Arrivals
import Overseer.Proofs.Supervision.AtWork

/-!
# What happens to the other tasks of a set

A `Cue` is something that happens to the tasks of a set other than one that is left out, in terms
that do not depend on it: loops go by their tickets. `Scene.hear` says what a cue does to a scene
and what comes of it. It knows nothing of the task that is left out but whether that holds the
position for which a registration asks.

`TaskSet.cue?` says which events of a set are cues. Here are those that bring a registration: what a
set does with it the scene does too (`hears_register`, `hears_initialized`), and a registration of
the task that is left out does nothing to the scene (`heedless_register`, `heedless_initialized`).
-/

namespace Overseer

variable {κ ξ : Type}

/-- Something that happens to the other tasks of a set. -/
inductive Cue (κ ξ : Type) where
  | register (c : CallId) (task : TaskRef) (args : List Argument)
      (options : RegisterOptions PoolId κ) (order : Option Nat) (extra : ξ)
  /-- The `init` of a late registration has returned. -/
  | initialized (c : CallId) (result : Except Fault Unit)
  /-- The call that brings a late registration is dropped. -/
  | abandon (c : CallId)
  | unregister (task : TaskRef)
  /-- The loop of a ticket gets its turn. -/
  | poll (k : CallId) (now : Nat)
  /-- A run has ended, with an error if it failed. -/
  | ran (k : CallId) (now : Nat) (error : Option Fault)
  | kill (k : CallId)
  /-- The parent token is cancelled. -/
  | cancelRoot
  deriving DecidableEq

/-- The task that an answer is about. -/
def SetAnswer.task? : SetAnswer κ → Option TaskRef
  | .call (.callInit task _) => some task
  | .loop (.run task) => some task
  | .loop (.report _ task _ _) => some task
  | _ => none

/-- What is said of the task of an answer holds of an answer without one. -/
theorem SetAnswer.about_of_task? {answer : SetAnswer κ} {P : TaskRef → Prop}
    (h : answer.task? = none) : ∀ task, answer.task? = some task → P task :=
  fun task htask => absurd htask (by simp [h])

/-! ## What a cue does to a scene -/

namespace Scene

variable (v : Scene κ ξ)

/-- Why a registration is refused, if so. `held` says whether the task that is left out holds the
position for which it asks. -/
def refusal? (held : Bool) (r : Registration κ ξ) : Option SupervisionError :=
  if v.registry.has r.task.id then some (.duplicateRegistration r.task.name)
  else
    match r.order with
    | none => none
    | some order =>
      if v.registry.hasOrder order || held then some (.duplicateOrder order) else none

def setArriving (c : CallId) (r : Option (Registration κ ξ)) : Scene κ ξ :=
  { v with arriving := Function.update v.arriving c r }

def setLoop (k : CallId) (x : Option Loop) : Scene κ ξ :=
  { v with loops := Function.update v.loops k x }

def tearDown (task : TaskRef) : Scene κ ξ := { v with left := v.left ++ [task] }

/-- A registration is refused at once, or its task is initialized. -/
def register (held : Bool) (r : Registration κ ξ) : Scene κ ξ × SetAnswer κ :=
  match v.refusal? held r with
  | some e => (v, .call (.returned (.error e)))
  | none => (v.setArriving r.ticket (some r), .call (.callInit r.task r.args))

/-- A registration whose task has been initialized comes in, unless it is refused after all. -/
def enroll (held : Bool) (r : Registration κ ξ) : Scene κ ξ × SetAnswer κ :=
  match v.refusal? held r with
  | some e => (v.tearDown r.task, .call (.returned (.error e)))
  | none =>
    ({ v with
      registry := v.registry.insert { r with state := .running, loop := none }
      loops := Function.update v.loops r.ticket (some (r.fresh v.rootCancelled)) },
      .call (.returned (.ok ())))

def initialized (held : Bool) (c : CallId) (result : Except Fault Unit) :
    Scene κ ξ × SetAnswer κ :=
  match v.arriving c with
  | none => (v, .call .wait)
  | some r =>
    match result with
    | .error source =>
      (v.setArriving c none, .call (.returned (.error (.initFailed r.task.name source))))
    | .ok _ => (v.setArriving c none).enroll held { r with state := .initialized }

def unregister (task : TaskRef) : Scene κ ξ × SetAnswer κ :=
  match v.registry.lookup? task.id with
  | none => (v, .result (.error (.notRegistered task.name)))
  | some r =>
    (({ v with registry := v.registry.remove task.id }.setLoop r.ticket
      ((v.loops r.ticket).map Loop.cancel)).tearDown r.task, .result (.ok ()))

/-- A loop waits for its next run, unless it is cancelled. -/
def rest (k : CallId) (x : Loop) (now : Nat) : Scene κ ξ × SetAnswer κ :=
  if x.cancelled then (v.setLoop k none, .loop .ended)
  else
    let deadline := now + x.period.ceilMillis
    (v.setLoop k (some { x with phase := .waiting deadline }), .loop (.wait deadline))

def poll (k : CallId) (now : Nat) : Scene κ ξ × SetAnswer κ :=
  match v.loops k with
  | none => (v, .loop .ended)
  | some x =>
    match x.phase with
    | .spawned => v.rest k x now
    | .waiting deadline =>
      if x.cancelled then (v.setLoop k none, .loop .ended)
      else if deadline ≤ now then
        (v.setLoop k (some { x with phase := .running }), .loop (.run x.task))
      else (v, .loop (.wait deadline))
    | _ => (v, .loop (.wait now))

/-- What is registered of a task goes when a run of it has failed. -/
def fail (k : CallId) (task : TaskRef) (error : Fault) : Scene κ ξ × SetAnswer κ :=
  match v.registry.lookup? task.id with
  | none => (v.setLoop k none, .loop .ended)
  | some r =>
    (({ v with registry := v.registry.remove task.id }.setLoop k none).tearDown r.task,
      .loop (match r.options.onError with
        | none => .ended
        | some callback => .report callback task error (r.options.pool.or v.pool)))

def ran (k : CallId) (now : Nat) (error : Option Fault) : Scene κ ξ × SetAnswer κ :=
  match v.loops k, error with
  | none, _ => (v, .loop .ended)
  | some x, none => v.rest k x now
  | some x, some error => v.fail k x.task error

def cancelRoot : Scene κ ξ :=
  if v.rootCancelled then v
  else { v with rootCancelled := true, loops := fun k => (v.loops k).map Loop.cancel }

/-- Let a cue happen. -/
def hear (held : Bool) : Cue κ ξ → Scene κ ξ × SetAnswer κ
  | .register c task args options order extra =>
    v.register held {
      ticket := c, task := task, args := args, options := options, order := order,
      extra := extra }
  | .initialized c result => v.initialized held c result
  | .abandon c => (v.setArriving c none, .done)
  | .unregister task => v.unregister task
  | .poll k now => v.poll k now
  | .ran k now error => v.ran k now error
  | .kill k => (v.setLoop k none, .done)
  | .cancelRoot => (v.cancelRoot, .done)

end Scene

namespace TaskSet

variable {a : TaskId} {us : List CallId} {s t : TaskSet κ ξ} {c : CallId} {x : Loop}
  {r : Registration κ ξ} {h : List (SetOccurrence κ ξ)} {e : SetEvent κ ξ} {q : Cue κ ξ}

/-- The loop of that number, if it is seen. -/
def seenLoop? (a : TaskId) (s : TaskSet κ ξ) (l : LoopId) : Option Loop :=
  (s.loop? l).filter (·.isSeen a)

/-- The event as a cue for the other tasks than `a`. -/
def cue? (a : TaskId) (s : TaskSet κ ξ) : SetEvent κ ξ → Option (Cue κ ξ)
  | .begin c (.register task args options order extra) _ =>
    if task.id = a then none else some (.register c task args options order extra)
  | .initialized c result _ => (s.arriving a c).map fun _ => .initialized c result
  | .abandon c => (s.arriving a c).map fun _ => .abandon c
  | .unregister task => if task.id = a then none else some (.unregister task)
  | .pollLoop l now => (s.seenLoop? a l).map fun x => .poll x.ticket now
  | .ran l now ending => (s.seenLoop? a l).map fun x => .ran x.ticket now ending.error?
  | .killLoop l => (s.seenLoop? a l).map fun x => .kill x.ticket
  | .cancelRoot => some .cancelRoot
  | _ => none

/-- The position for which a registration asks when it is decided. -/
def position? (a : TaskId) (s : TaskSet κ ξ) : SetEvent κ ξ → Option Nat
  | .begin _ (.register _ _ _ order _) _ => order
  | .initialized c _ _ => (s.arriving a c).bind (·.order)
  | _ => none

/-- Does `a` hold the position? -/
def holds (a : TaskId) (s : TaskSet κ ξ) (order : Option Nat) : Bool :=
  order.any fun n => List.any s.registry fun r => r.task.id == a && r.order == some n

/-- Does `a` hold the position for which a registration asks that is decided? -/
def isHeld (a : TaskId) (s : TaskSet κ ξ) (e : SetEvent κ ξ) : Bool := s.holds a (s.position? a e)

/-! ## Registrations -/

theorem refusal?_scene (hs : AtWork us s) (hr : r.task.id ≠ a) :
    (s.scene a).refusal? (s.holds a r.order) r = s.refusal? r := by
  have hhas : (s.scene a).registry.has r.task.id = s.registry.has r.task.id :=
    Registry.has_others hr
  have horder : ∀ n, s.registry.hasOrder n = ((s.scene a).registry.hasOrder n ||
      List.any s.registry fun r => r.task.id == a && r.order == some n) :=
    Registry.hasOrder_eq a s.registry
  unfold Scene.refusal? refusal?
  rw [hhas, if_neg (c := (s.lifecycle == .terminated) = true) (by simp [hs.started])]
  cases r.order with
  | none => rfl
  | some n =>
    simp only [horder n, holds, Option.any_some]
    rfl

theorem arriving_of_new (hnew : (s.call? c).isSome = false) (a : TaskId) :
    s.arriving a c = none := by
  have hnone : s.call? c = none := by simpa using hnew
  simp [arriving, hnone]

/-- A registration with its first turn: it is refused, or its task is initialized. -/
theorem consider_of_started (hs : AtWork us s) (r : Registration κ ξ) :
    (s.considering r).consider r.ticket r = match s.refusal? r with
      | some e => ((s.considering r).endCall r.ticket, .returned (.error e))
      | none => (((s.considering r).leaveLifecycle r.ticket).setPhase r.ticket (.initializing r),
          .callInit r.task r.args) := by
  have hunder : (s.considering r).isUnderway = true := by
    simp [isUnderway, considering, addCall, lockLifecycle, hs.started]
  unfold consider
  rw [refusal?_considering]
  cases s.refusal? r with
  | some e => rfl
  | none => exact if_pos hunder

theorem scene_considering (hnew : (s.call? r.ticket).isSome = false) (a : TaskId) :
    (s.considering r).scene a = s.scene a :=
  ((alike_lockLifecycle _ _).scene_eq a).trans (scene_addCall hnew rfl a)

/-- A registration that is refused at once leaves no trace. -/
theorem scene_refused (hnew : (s.call? r.ticket).isSome = false) (a : TaskId) :
    ((s.considering r).endCall r.ticket).scene a = s.scene a := by
  have hin := scene_considering hnew a
  have harriving : (s.considering r).arriving a = s.arriving a := congrArg Scene.arriving hin
  rw [scene_endCall, hin, harriving, ← arriving_of_new hnew a, Function.update_eq_self]
  rfl

theorem scene_initializing (hnew : (s.call? r.ticket).isSome = false) (a : TaskId) :
    (((s.considering r).leaveLifecycle r.ticket).setPhase r.ticket (.initializing r)).scene a =
      (s.scene a).setArriving r.ticket (if r.task.id = a then none else some r) := by
  have hleave := alike_leaveLifecycle (s.considering r) r.ticket
  have hin := (hleave.scene_eq a).trans (scene_considering hnew a)
  have harriving := congrArg Scene.arriving hin
  have hmem : ⟨r.ticket, .admitting r⟩ ∈ ((s.considering r).leaveLifecycle r.ticket).calls :=
    hleave.calls ▸ mem_addCall_self s r.ticket (.admitting r)
  rw [scene_setPhase hmem, hin]
  have hfilter : (CallPhase.initializing r).arriving?.filter (·.task.id != a) =
      if r.task.id = a then none else some r := by
    by_cases hr : r.task.id = a <;> simp [CallPhase.arriving?, Option.filter, hr]
  rw [hfilter]
  exact congrArg (fun g => { s.scene a with
    arriving := Function.update g r.ticket (if r.task.id = a then none else some r) }) harriving

/-- The registration of another task. -/
theorem hears_register (hs : AtWork us s) (hnew : (s.call? r.ticket).isSome = false)
    (hr : r.task.id ≠ a) : (((s.considering r).consider r.ticket r).1.scene a,
      SetAnswer.call ((s.considering r).consider r.ticket r).2) =
        (s.scene a).register (s.holds a r.order) r := by
  unfold Scene.register
  rw [consider_of_started hs, refusal?_scene hs hr]
  cases s.refusal? r with
  | some e => simp only [scene_refused hnew]
  | none => simp only [scene_initializing hnew, if_neg hr]

/-- The registration of the task that is left out. -/
theorem heedless_register (hs : AtWork us s) (hnew : (s.call? r.ticket).isSome = false)
    (hr : r.task.id = a) : ((s.considering r).consider r.ticket r).1.scene a = s.scene a := by
  rw [consider_of_started hs]
  cases s.refusal? r with
  | some e => exact scene_refused hnew a
  | none =>
    refine (scene_initializing hnew a).trans ?_
    rw [if_pos hr, ← arriving_of_new hnew a]
    exact congrArg (fun g => { s.scene a with arriving := g }) (Function.update_eq_self _ _)

/-- The set in which a late registration is reconsidered: its call has the lifecycle lock. -/
def reconsidering (s : TaskSet κ ξ) (c : CallId) (r : Registration κ ξ) : TaskSet κ ξ :=
  (s.setPhase c (.readmitting r)).lockLifecycle c

/-- What comes of a late registration whose task has been initialized. -/
theorem initialized_of_started (hs : AtWork us s) (hx : s.call? c = some ⟨c, .initializing r⟩)
    (b : Bool) : s.initialized c (.ok ()) b =
      match s.refusal? r with
      | some e => (((s.reconsidering c { r with state := .initialized }).tearDown
          { r with state := .initialized } .stopped).endCall c, .returned (.error e))
      | none => (((s.reconsidering c { r with state := .initialized }).enroll
          { r with state := .initialized }).endCall c, .returned (.ok ())) := by
  have hcall : (s.reconsidering c { r with state := .initialized }).call? c =
      some ⟨c, .readmitting { r with state := .initialized }⟩ :=
    call?_setPhase (mem_of_call? hx) _
  have hheld : (s.reconsidering c { r with state := .initialized }).lifecycleLock.isHeldBy c =
      true := by
    simp [reconsidering, setPhase, lockLifecycle, Lock.acquire, Lock.isHeldBy, hs.free]
  have hpoll : s.initialized c (.ok ()) b =
      (s.reconsidering c { r with state := .initialized }).poll c b := by
    simp only [initialized, hx]
    rfl
  have hrefusal : (s.reconsidering c { r with state := .initialized }).refusal?
      { r with state := .initialized } = s.refusal? r := rfl
  rw [hpoll]
  unfold poll
  simp only [hcall]
  rw [if_pos hheld, reconsider, hrefusal]
  cases s.refusal? r <;> rfl

theorem scene_reconsidering (hx : s.call? c = some ⟨c, .initializing r⟩) (r' : Registration κ ξ)
    (a : TaskId) : (s.reconsidering c r').scene a = (s.scene a).setArriving c none :=
  ((alike_lockLifecycle _ c).scene_eq a).trans (scene_setPhase (mem_of_call? hx) _ a)

theorem setArriving_setArriving (v : Scene κ ξ) (c : CallId)
    (r r' : Option (Registration κ ξ)) :
    (v.setArriving c r).setArriving c r' = v.setArriving c r' := by
  simp [Scene.setArriving]

/-- What is about to come in is new. -/
theorem AtWork.new (hs : AtWork us s) (hx : s.call? c = some ⟨c, .initializing r⟩) :
    ∀ x ∈ s.loops, x.ticket ≠ r.ticket := by
  have hc := mem_of_call? hx
  rw [hs.sound.own _ hc r rfl]
  exact (hs.sound.new _ hc r rfl).2

theorem has_of_refusal? (hr : s.refusal? r = none) : s.registry.has r.task.id = false := by
  unfold refusal? at hr
  split at hr
  · contradiction
  · split at hr
    · contradiction
    · rename_i hhas
      simpa using hhas

/-- What is left when a call is over. -/
theorem scene_over (s : TaskSet κ ξ) (c : CallId) (a : TaskId) :
    (s.endCall c).scene a = (s.scene a).setArriving c none := scene_endCall s a c

/-- What comes in after its task has been initialized. -/
theorem scene_admitted (hs : AtWork us s) (hx : s.call? c = some ⟨c, .initializing r⟩)
    (hr : s.refusal? r = none) (a : TaskId) :
    ((s.reconsidering c { r with state := .initialized }).enroll
      { r with state := .initialized }).scene a =
        if r.task.id = a then (s.scene a).setArriving c none
        else { (s.scene a).setArriving c none with
          registry := (s.scene a).registry.insert { r with state := .running, loop := none }
          loops := Function.update (s.scene a).loops r.ticket
            (some (r.fresh (s.scene a).rootCancelled)) } := by
  have hin := scene_reconsidering hx { r with state := .initialized } a
  have hnew := hs.new hx
  rw [scene_enroll (s := s.reconsidering c { r with state := .initialized })
    (r := { r with state := .initialized }) hs.started hs.sorted hs.sound.tasks
    (has_of_refusal? (r := r) hr) hnew, hin]
  rfl

/-- The registration of another task comes in, or it is refused after all. -/
theorem hears_initialized (hs : AtWork us s) (hx : s.call? c = some ⟨c, .initializing r⟩)
    (hr : r.task.id ≠ a) (result : Except Fault Unit) (b : Bool) :
    ((s.initialized c result b).1.scene a, SetAnswer.call (s.initialized c result b).2) =
      (s.scene a).initialized (s.holds a r.order) c result := by
  have harriving : (s.scene a).arriving c = some r := by
    show (((s.call? c).bind _).filter _) = _
    simp [hx, CallPhase.arriving?, Option.filter, hr]
  unfold Scene.initialized
  rw [harriving]
  cases result with
  | error source =>
    have herror : s.initialized c (.error source) b =
        s.finish c (.error (.initFailed r.task.name source)) := by simp only [initialized, hx]
    rw [herror]
    exact Prod.ext (scene_over s c a) rfl
  | ok _ =>
    have hrefusal : ((s.scene a).setArriving c none).refusal? (s.holds a r.order)
        { r with state := .initialized } = s.refusal? r := refusal?_scene hs hr
    simp only [Scene.enroll, initialized_of_started hs hx, hrefusal]
    cases hrefused : s.refusal? r with
    | some e =>
      dsimp only
      rw [scene_over, scene_tearDown, scene_reconsidering hx, if_neg hr]
      exact Prod.ext (setArriving_setArriving ((s.scene a).tearDown r.task) c none none) rfl
    | none =>
      dsimp only
      rw [scene_over, scene_admitted hs hx hrefused, if_neg hr]
      refine Prod.ext ?_ rfl
      simp [Scene.setArriving]
      rfl

/-- The registration of the task that is left out comes in, or it does not. -/
theorem heedless_initialized (hs : AtWork us s) (hx : s.call? c = some ⟨c, .initializing r⟩)
    (hr : r.task.id = a) (result : Except Fault Unit) (b : Bool) :
    (s.initialized c result b).1.scene a = s.scene a := by
  have harriving : (s.scene a).arriving c = none := by
    show (((s.call? c).bind _).filter _) = _
    simp [hx, CallPhase.arriving?, Option.filter, hr]
  have hsame : (s.scene a).setArriving c none = s.scene a := by
    unfold Scene.setArriving
    rw [← harriving, Function.update_eq_self]
  cases result with
  | error source =>
    have herror : s.initialized c (.error source) b =
        s.finish c (.error (.initFailed r.task.name source)) := by simp only [initialized, hx]
    rw [herror]
    exact (scene_over s c a).trans hsame
  | ok _ =>
    rw [initialized_of_started hs hx]
    cases hrefused : s.refusal? r with
    | some e =>
      dsimp only
      rw [scene_over, scene_tearDown, scene_reconsidering hx, if_pos hr, hsame, List.append_nil]
      exact hsame
    | none =>
      dsimp only
      rw [scene_over, scene_admitted hs hx hrefused, if_pos hr, hsame, hsame]

end TaskSet

end Overseer
