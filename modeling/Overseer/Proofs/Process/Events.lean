import Overseer.Process
import Overseer.Proofs.Site.Events
import Overseer.Proofs.Supervision.Calls

/-!
# What happens to a process

A `Host` is a process that hosts a root task, with the supervised set of that task, all the pools
there are, and the shutdown token. The process begins when it is launched (`HostEvent.launch`). From
then on it goes on whenever what it has demanded is done (`HostEvent.proceed`): `Process.next` says
what it demands next, and `Host.perform` meets the demand with a call on the set, or releases the
pool. All else is up to others and can happen at any time: the token is cancelled by a signal or
from outside, calls and loops get their turns, the code of the root task ends in one way or
another, pools are used.

The outside promises what it promises to the site, and that nobody else makes calls on the set of
the process, or drops them, or lets go of the pool while the process has it. It also promises that
the `init` of the root task returns: an `init` that panics takes the process with it.

A history of a process is a history of its site (`site_of_run`) and of its set (`set_of_run`).
-/

namespace Overseer

/-- A process, and the root task that it hosts. -/
structure Boundary (κ ξ : Type) where
  process : Process
  root : TaskRef
  args : List Argument
  options : RegisterOptions PoolId κ
  extra : ξ

/-- What a process waits for. -/
inductive HostWait where
  /-- A call on the set of the root task. -/
  | call (c : CallId)
  /-- Nothing: its call has returned. -/
  | turn (result : Except SupervisionError Unit)
  /-- The shutdown token. -/
  | shutdown

/-- How far the run of a process has come. -/
inductive HostStage where
  | idle
  | busy (phase : ProcessPhase) (wait : HostWait)
  | ended (result : Except Fault Unit)

/-- A process and its surroundings. -/
structure Host (κ ξ υ : Type) where
  site : Site κ ξ υ
  stage : HostStage := .idle
  /-- The shutdown token is cancelled. -/
  shutdown : Bool := false
  /-- The process has its signal handlers. -/
  listens : Bool := false
  /-- Somebody has asked for the default pool. -/
  hasDefault : Bool := false

/-- Something that happens to a process. -/
inductive HostEvent (κ ξ υ : Type) where
  /-- The process is run. Its first call is to get that number. -/
  | launch (c : CallId)
  /-- The process goes on. If it makes a call, that is to get that number. -/
  | proceed (c : CallId)
  | signal (number : Int)
  /-- The shutdown token is cancelled from outside. -/
  | cancel
  /-- Somebody asks for the default pool. -/
  | getDefault
  | site (e : SiteEvent κ ξ υ)

/-- An event of a process with the state that it found. -/
abbrev HostOccurrence (κ ξ υ : Type) := Occurrence (Host κ ξ υ) (HostEvent κ ξ υ)

variable {κ ξ υ : Type}

namespace HostStage

def isIdle : HostStage → Bool
  | .idle => true
  | _ => false

def isEnded : HostStage → Bool
  | .ended _ => true
  | _ => false

/-- The call on which the process waits. -/
def call? : HostStage → Option CallId
  | .busy _ (.call c) => some c
  | _ => none

end HostStage

/-- What the process waits for when its call has had a turn. -/
def HostWait.after (c : CallId) : SetAnswer κ → HostWait
  | .call (.returned result) => .turn result
  | _ => .call c

/-- How far the process has come when a call on the set has had a turn. -/
def HostStage.hear (stage : HostStage) (caller : Option CallId) (answer : SetAnswer κ) :
    HostStage :=
  match stage with
  | .busy phase (.call c) => if caller = some c then .busy phase (.after c answer) else stage
  | _ => stage

namespace Boundary

variable (b : Boundary κ ξ)

/-- The call that meets a demand. -/
def request? : ProcessDemand → Option (Request κ ξ)
  | .register => some (.register b.root b.args b.options none b.extra)
  | .init => some .init
  | .destroy => some .destroy
  | .serve => none
  | .stop _ => none

end Boundary

namespace Host

variable (b : Boundary κ ξ) (w : Host κ ξ υ)

/-- What the process demands if it goes on, and the phase in which it does. -/
def demand? : HostEvent κ ξ υ → Option (Option ProcessPhase × ProcessDemand)
  | .launch _ =>
    match w.stage, b.process.startFault? with
    | .idle, none => some (some .registering, .register)
    | _, _ => none
  | .proceed _ =>
    match w.stage with
    | .busy phase (.turn result) => some (b.process.next b.root.name phase result).2
    | .busy phase .shutdown =>
      if w.shutdown then some (b.process.next b.root.name phase (.ok ())).2 else none
    | _ => none
  | _ => none

/-- The pool that the process releases in the end. -/
def pool? : Option PoolId :=
  match b.process.pool with
  | some p => some p
  | none => if w.hasDefault then some w.site.defaultPool else none

/-- Does the event ask the process to stop? -/
def isRequest : HostEvent κ ξ υ → Bool
  | .signal number => w.listens && b.process.listened.contains number
  | .cancel => true
  | _ => false

/-- What a demand comes to at the site. -/
def demandEvent? (c : CallId) : ProcessDemand → Option (SiteEvent κ ξ υ)
  | .stop _ => (w.pool? b).map fun p => .pool p .release
  | d => (b.request? d).map fun request => .set (.begin c request w.shutdown)

/-- What an event is to the site. -/
def siteEvent? (e : HostEvent κ ξ υ) : Option (SiteEvent κ ξ υ) :=
  match e with
  | .launch c | .proceed c => (w.demand? b e).bind fun d => w.demandEvent? b c d.2
  | .site e => some e
  | _ => if w.isRequest b e && !w.shutdown then some (.set .cancelRoot) else none

/-- What becomes of the process when a demand is met. -/
def stageOf (c : CallId) : Option ProcessPhase × ProcessDemand → HostStage
  | (_, .stop result) => .ended result
  | (some phase, d) =>
    match b.request? d with
    | none => .busy phase .shutdown
    | some request =>
      .busy phase (.after c (w.site.set.perform (.begin c request w.shutdown)).2)
  | (none, _) => w.stage

/-- How far the process has come after an event. -/
def nextStage (e : HostEvent κ ξ υ) : HostStage :=
  match e with
  | .launch c =>
    match b.process.startFault? with
    | some f => .ended (.error f)
    | none => (w.demand? b e).elim w.stage (w.stageOf b c)
  | .proceed c => (w.demand? b e).elim w.stage (w.stageOf b c)
  | .site (.set e) => w.stage.hear e.caller? (w.site.set.perform e).2
  | _ => w.stage

/-- Has the process its signal handlers after an event? -/
def nextListens (e : HostEvent κ ξ υ) : Bool :=
  match w.demand? b e with
  | some (_, .register) => true
  | some (_, .destroy) => false
  | _ => w.listens

/-- Does the event ask for the default pool? -/
def asksDefault : HostEvent κ ξ υ → Bool
  | .getDefault => true
  | .site (.handOver l _) => (w.site.due? l).any (·.pool == w.site.defaultPool)
  | _ => false

/-- Let an event happen. -/
def perform (e : HostEvent κ ξ υ) : Host κ ξ υ where
  site := (w.siteEvent? b e).elim w.site w.site.perform
  stage := w.nextStage b e
  shutdown := w.shutdown || w.isRequest b e
  listens := w.nextListens b e
  hasDefault := w.hasDefault || w.asksDefault e

/-- What others may do at the site of a process. -/
def permits : SiteEvent κ ξ υ → Bool
  | .set (.begin _ _ _) => false
  | .set (.abandon _) => false
  | .set (.unregister _) => false
  | .set .cancelRoot => false
  | .set (.poll _ cancelled) => cancelled == w.shutdown
  | .set (.initialized _ _ cancelled) => cancelled == w.shutdown
  | .set .drop => w.stage.isEnded
  | .set _ => true
  | .pool p .drop => p != w.site.defaultPool && (w.stage.isEnded || b.process.pool != some p)
  | .pool p _ => p != w.site.defaultPool || w.hasDefault
  | .handOver _ _ => true

end Host

/-- What happens to the site of a process. -/
def sitePart (b : Boundary κ ξ) (h : List (HostOccurrence κ ξ υ)) :
    List (SiteOccurrence κ ξ υ) :=
  h.filterMap fun o => (o.before.siteEvent? b o.event).map (⟨o.before.site, ·⟩)

/-- What the outside promises about the next event of a process. -/
def Host.allows (b : Boundary κ ξ) (h : List (HostOccurrence κ ξ υ)) (w : Host κ ξ υ)
    (e : HostEvent κ ξ υ) : Bool :=
  (w.siteEvent? b e).all (Site.allows (sitePart b h) w.site) &&
    match e with
    | .launch _ => w.stage.isIdle
    | .proceed _ => (w.demand? b e).isSome
    | .site e => w.permits b e
    | _ => true

/-- A process to which events happen. -/
def hostSystem (b : Boundary κ ξ) (υ : Type) :
    System (Host κ ξ υ) (HostEvent κ ξ υ) Unit where
  starts w := (siteSystem κ ξ υ).starts w.site ∧
    w.site.set = { name := b.process.name, pool := b.process.pool } ∧ w = { site := w.site }
  happen w e := (w.perform b e, ())
  allows := Host.allows b

namespace Host

variable {b : Boundary κ ξ} {w : Host κ ξ υ} {h : List (HostOccurrence κ ξ υ)}
  {e : HostEvent κ ξ υ}

theorem sitePart_append (b : Boundary κ ξ) (h : List (HostOccurrence κ ξ υ)) (w : Host κ ξ υ)
    (e : HostEvent κ ξ υ) : sitePart b (h ++ [⟨w, e⟩]) =
      sitePart b h ++ ((w.siteEvent? b e).map (⟨w.site, ·⟩)).toList :=
  Site.filterMap_concat _ h _

/-- A history of a process is one of its site. -/
theorem site_of_run (hrun : (hostSystem b υ).Run h w) :
    (siteSystem κ ξ υ).Run (sitePart b h) w.site := by
  induction hrun with
  | start hs => exact .start hs.1
  | @next h w e hrun hall ih =>
    rw [sitePart_append]
    show (siteSystem κ ξ υ).Run _ ((w.siteEvent? b e).elim w.site w.site.perform)
    have hpart := (Bool.and_eq_true_iff.1 hall).1
    cases he : w.siteEvent? b e with
    | none => simpa using ih
    | some e' =>
      rw [he] at hpart
      exact ih.next hpart

/-! ## The set -/

/-- What happens to the set of the root task. -/
def setHistory (b : Boundary κ ξ) (h : List (HostOccurrence κ ξ υ)) :
    List (SetOccurrence κ ξ) := setPart (sitePart b h)

/-- What an event is to the set of the root task. -/
def setEvent? (b : Boundary κ ξ) (w : Host κ ξ υ) (e : HostEvent κ ξ υ) :
    Option (SetEvent κ ξ) := (w.siteEvent? b e).bind Site.setEvent?

theorem set_of_run (hrun : (hostSystem b υ).Run h w) :
    (setSystem κ ξ).Run (setHistory b h) w.site.set :=
  Site.set_of_run (site_of_run hrun)

theorem set_perform (b : Boundary κ ξ) (w : Host κ ξ υ) (e : HostEvent κ ξ υ) :
    (w.perform b e).site.set = (w.setEvent? b e).elim w.site.set fun e' =>
      ((setSystem κ ξ).happen w.site.set e').1 := by
  show ((w.siteEvent? b e).elim w.site w.site.perform).set = _
  unfold setEvent?
  cases w.siteEvent? b e with
  | none => rfl
  | some e' => exact Site.set_perform w.site e'

theorem setHistory_eq (b : Boundary κ ξ) (h : List (HostOccurrence κ ξ υ)) : setHistory b h =
    h.filterMap fun o => (o.before.setEvent? b o.event).map (⟨o.before.site.set, ·⟩) := by
  unfold setHistory setPart sitePart
  rw [List.filterMap_filterMap]
  refine List.filterMap_congr fun o _ => ?_
  unfold setEvent?
  cases o.before.siteEvent? b o.event with
  | none => rfl
  | some e => rfl

theorem mem_setHistory {x : SetOccurrence κ ξ} (hx : x ∈ setHistory b h) :
    ∃ o ∈ h, ∃ e, o.before.setEvent? b o.event = some e ∧ x = ⟨o.before.site.set, e⟩ := by
  rw [setHistory_eq] at hx
  obtain ⟨o, ho, hx⟩ := List.mem_filterMap.1 hx
  obtain ⟨e, he, rfl⟩ := Option.map_eq_some_iff.1 hx
  exact ⟨o, ho, e, he, rfl⟩

theorem setHistory_append (b : Boundary κ ξ) (h h' : List (HostOccurrence κ ξ υ)) :
    setHistory b (h ++ h') = setHistory b h ++ setHistory b h' := by
  simp only [setHistory_eq, List.filterMap_append]

theorem setHistory_concat (b : Boundary κ ξ) (h : List (HostOccurrence κ ξ υ)) (w : Host κ ξ υ)
    (e : HostEvent κ ξ υ) : setHistory b (h ++ [⟨w, e⟩]) =
      setHistory b h ++ ((w.setEvent? b e).map (⟨w.site.set, ·⟩)).toList := by
  simp only [setHistory_eq]
  exact Site.filterMap_concat _ h _

theorem allows_set {e' : SetEvent κ ξ} (hall : w.allows b h e = true)
    (he : w.setEvent? b e = some e') :
    TaskSet.allows (setHistory b h) w.site.set e' = true := by
  obtain ⟨x, hx, hx'⟩ := Option.bind_eq_some_iff.1 he
  have hpart := (Bool.and_eq_true_iff.1 hall).1
  rw [hx] at hpart
  cases x with
  | set e =>
    obtain rfl := Option.some.inj hx'
    exact (Bool.and_eq_true_iff.1 hpart).1
  | _ => contradiction

end Host

end Overseer
