import Overseer.Proofs.Supervision.Ownership
import Overseer.Proofs.Supervision.Terminated

/-!
# What a turn comes to

`Takes c s p t turn` says what happens when the call `c` of the set `s`, which is in phase `p`,
takes its turn: the set comes to `t`, and the call asks for an `init`, waits or returns. There is
one constructor for each end that a turn can have, with what the call has found the set to be, so
a fact about turns is proved by cases of it and nobody has to open `TaskSet.poll` again.

`Gives s e t turn` is the same for an event that gives a call its turn, with the news that the event
brings (`gives_of_perform`). The other events make a set at most smaller (`Wanes`,
`wanes_of_perform`).
-/

namespace Overseer

/-- Who leaves a lock leaves it to another that holds it. -/
theorem Lock.holder_leave {l : Lock} {c d : CallId} (h : l.holder = some d) (hne : d ≠ c) :
    (l.leave c).1.holder = some d := by
  have hno : l.isHeldBy c = false := by simp [isHeldBy, h, hne]
  rw [leave, if_neg (by simp [hno])]
  exact h

/-- A lock that is held stays with its holder when another asks for it. -/
theorem Lock.holder_acquire {l : Lock} {d : CallId} (h : l.holder = some d) (c : CallId) :
    (l.acquire c).holder = some d := by
  rw [acquire, h]

namespace TaskSet

variable {κ ξ : Type} {s t u : TaskSet κ ξ} {c : CallId} {torn torn' : List TaskRef}
  {us : List CallId}

/-! ## Locks and notices -/

/-- Nothing but locks and notices has changed, and `torn` were torn down. A call in progress that
holds the startup lock keeps it. -/
structure Alike (torn : List TaskRef) (s t : TaskSet κ ξ) : Prop where
  same : t = { s with
    lifecycleLock := t.lifecycleLock, startupLock := t.startupLock, notices := t.notices }
  tornDown : t.tornDown = s.tornDown ++ torn
  holder : ∀ x ∈ s.calls, s.startupLock.holder = some x.id → t.startupLock.holder = some x.id

theorem Alike.refl (s : TaskSet κ ξ) : Alike [] s s := ⟨rfl, by simp, fun _ _ h => h⟩

theorem Alike.calls (h : Alike torn s t) : t.calls = s.calls := by rw [h.same]

theorem Alike.trans (h : Alike torn s t) (h' : Alike torn' t u) :
    Alike (torn ++ torn') s u := by
  refine ⟨?_, by rw [h'.tornDown, h.tornDown, List.append_assoc], fun x hx hl => ?_⟩
  · rw [h'.same, h.same]
  · exact h'.holder x (h.calls ▸ hx) (h.holder x hx hl)

theorem Alike.then (h : Alike torn s t) (h' : Alike [] t u) : Alike torn s u := by
  simpa using h.trans h'

theorem Alike.lifecycle (h : Alike torn s t) : t.lifecycle = s.lifecycle := by rw [h.same]

theorem Alike.registry (h : Alike torn s t) : t.registry = s.registry := by rw [h.same]

theorem Alike.loops (h : Alike torn s t) : t.loops = s.loops := by rw [h.same]

theorem Alike.tickets (h : Alike torn s t) : t.tickets = s.tickets := by
  rw [TaskSet.tickets, h.registry, TaskSet.tickets]

theorem Alike.goesOn (h : Alike torn s t) : GoesOn torn s t := by
  have hgo := goesOn_of_notices (s := s) t.lifecycleLock t.startupLock h.tornDown
  rwa [← h.same] at hgo

theorem Alike.setPhase (h : Alike torn s t) (q : CallPhase κ ξ) :
    Alike torn (s.setPhase c q) (t.setPhase c q) := by
  refine ⟨?_, h.tornDown, fun x hx hl => ?_⟩
  · rw [h.same]
    rfl
  · obtain ⟨y, hy, rfl⟩ := List.mem_map.1 hx
    have hid : (if y.id == c then { y with phase := q } else y).id = y.id := by split <;> rfl
    rw [hid] at hl ⊢
    exact h.holder y hy hl

theorem alike_notify {n : SetNotice} (h : n.tornDown? = none) : Alike [] s (s.notify n) :=
  ⟨rfl, by simp [tornDown, notify, h], fun _ _ h => h⟩

theorem alike_record (s : TaskSet κ ξ) (l : Level) (m : String) (fs : List (String × Field)) :
    Alike [] s (s.record l m fs) := alike_notify rfl

theorem alike_tearDown (s : TaskSet κ ξ) (r : Registration κ ξ) (why : Departure) :
    Alike [r.task] s (s.tearDown r why) :=
  ⟨rfl, by simp [tornDown, tearDown, notify, SetNotice.tornDown?], fun _ _ h => h⟩

theorem alike_locks {a b : Lock}
    (h : ∀ x ∈ s.calls, s.startupLock.holder = some x.id → b.holder = some x.id) :
    Alike [] s { s with lifecycleLock := a, startupLock := b } := ⟨rfl, by simp [tornDown], h⟩

theorem alike_lockLifecycle (s : TaskSet κ ξ) (c : CallId) : Alike [] s (s.lockLifecycle c) :=
  alike_locks fun _ _ h => h

theorem alike_wakeHolder (s : TaskSet κ ξ) (holder : Option CallId) :
    Alike [] s (s.wakeHolder holder) := by
  cases holder with
  | none => exact .refl s
  | some c => exact alike_notify rfl

theorem alike_leaveLifecycle (s : TaskSet κ ξ) (c : CallId) : Alike [] s (s.leaveLifecycle c) :=
  (alike_locks fun _ _ h => h).then (alike_wakeHolder _ _)

/-- A call that is over is not in progress. -/
theorem not_mem_without {q : CallPhase κ ξ} : ⟨c, q⟩ ∉ (s.without c).calls := by
  simp [without]

theorem alike_endCall (s : TaskSet κ ξ) (c : CallId) : Alike [] (s.without c) (s.endCall c) := by
  refine (alike_leaveLifecycle (s.without c) c).then (.then (alike_locks ?_) (alike_wakeHolder _ _))
  intro x hx hl
  refine Lock.holder_leave hl fun hid => ?_
  rw [(alike_leaveLifecycle (s.without c) c).calls] at hx
  subst hid
  exact not_mem_without hx

/-! ## Turns -/

/-- Startup is over: the set has started, and every registered task has a loop. -/
def launched (s : TaskSet κ ξ) (c : CallId) (parentCancelled : Bool) : TaskSet κ ξ :=
  (s.registry.tasks.map (·.id)).foldl startLoop
    ({ s with lifecycle := .started, isRooted := true, rootCancelled := parentCancelled }.without c)

/-- Startup has failed. A set that was destroyed meanwhile stays terminated. -/
def givenUp (s : TaskSet κ ξ) (c : CallId) : TaskSet κ ξ :=
  (if s.lifecycle = Lifecycle.terminated then s else { s with lifecycle := .aborted }).without c

/-- In phase `p` the call `c` takes its turn, with which the set `s` comes to `t`. -/
inductive Takes (c : CallId) :
    TaskSet κ ξ → CallPhase κ ξ → TaskSet κ ξ → CallTurn → Prop
  | waits (s : TaskSet κ ξ) (p : CallPhase κ ξ) : Takes c s p s .wait
  | alike {s s' t : TaskSet κ ξ} {p : CallPhase κ ξ} {turn : CallTurn} : Alike [] s s' →
      Takes c s' p t turn → Takes c s p t turn
  | unqueues {s t : TaskSet κ ξ} {turn : CallTurn} : s.startupLock.holder = some c →
      Takes c (s.setPhase c .opening) .opening t turn → Takes c s .queued t turn
  /-- Startup takes its snapshot. -/
  | opens {s t : TaskSet κ ξ} {turn : CallTurn} : s.lifecycle = .pending →
      Takes c ({ s with lifecycle := .starting }.setPhase c (.before s.registry.schedule))
        (.before s.registry.schedule) t turn → Takes c s .opening t turn
  /-- Somebody else has started the set, or was about to. -/
  | passes {s t : TaskSet κ ξ} : s.lifecycle = .starting ∨ s.lifecycle = .started →
      Alike [] (s.without c) t → Takes c s .opening t (.returned (.ok ()))
  | fails {s t : TaskSet κ ξ} : s.lifecycle = .aborted → Alike [] (s.without c) t →
      Takes c s .opening t (.returned (.error .initAborted))
  /-- Startup finds the set terminated. -/
  | expires {s t : TaskSet κ ξ} {p : CallPhase κ ξ} : s.lifecycle = .terminated →
      p.kind = .init → Alike [] (s.without c) t →
      Takes c s p t (.returned (.error .terminated))
  | prepares {s t : TaskSet κ ξ} {next : Entry} {rest : List Entry} :
      s.lifecycle ≠ .terminated → Alike [] (s.setPhase c (.preparing next rest)) t →
      Takes c s (.checking next rest) t (.callInit next.task next.args)
  | starts {s t : TaskSet κ ξ} (parentCancelled : Bool) : s.lifecycle ≠ .terminated →
      Alike [] (s.launched c parentCancelled) t →
      Takes c s .concluding t (.returned (.ok ()))
  | givesUp {s t : TaskSet κ ξ} {current : Entry} {source : Fault} :
      Alike [] (s.givenUp c) t → Takes c s (.aborting current source) t
        (.returned (.error (.initFailed current.task.name source)))
  | comesLate {s t : TaskSet κ ξ} {r : Registration κ ξ} : s.refusal? r = none →
      s.isUnderway = true → Alike [] (s.setPhase c (.initializing r)) t →
      Takes c s (.admitting r) t (.callInit r.task r.args)
  | refuses {s t : TaskSet κ ξ} {r : Registration κ ξ} {e : SupervisionError} :
      s.refusal? r = some e → Alike [] (s.without c) t →
      Takes c s (.admitting r) t (.returned (.error e))
  | enrolls {s t : TaskSet κ ξ} {p : CallPhase κ ξ} {r : Registration κ ξ} :
      p = .admitting r ∧ s.isUnderway = false ∨ p = .readmitting r → s.refusal? r = none →
      Alike [] ((s.enroll r).without c) t → Takes c s p t (.returned (.ok ()))
  /-- A late registration is refused after all. -/
  | loses {s t : TaskSet κ ξ} {r : Registration κ ξ} {e : SupervisionError} :
      s.refusal? r = some e → Alike [r.task] (s.without c) t →
      Takes c s (.readmitting r) t (.returned (.error e))
  | demolishes {s t : TaskSet κ ξ} : Alike [] (s.cleared.without c) t →
      Takes c s .demolishing t (.returned (.ok ()))
  /-- The set is destroyed, and loops are left. -/
  | drains {s t : TaskSet κ ξ} : Alike [] (s.cleared.setPhase c .draining) t →
      Takes c s .demolishing t .wait
  | ends {s t : TaskSet κ ξ} : Alike [] (s.without c) t →
      Takes c s .draining t (.returned (.ok ()))

/-- What a call does if it holds the lock, or else waits. -/
theorem Takes.ite {b : Bool} {p : CallPhase κ ξ} {r : TaskSet κ ξ × CallTurn}
    (h : Takes c s p r.1 r.2) :
    Takes c s p (if b then r else (s, .wait)).1 (if b then r else (s, .wait)).2 := by
  split
  · exact h
  · exact .waits s p

theorem takes_prepare (s : TaskSet κ ξ) (c : CallId) (next : Entry) (rest : List Entry) :
    Takes c s (.checking next rest) (s.prepare c next rest).1 (s.prepare c next rest).2 := by
  unfold prepare
  split
  · rename_i hl
    exact .expires (by simpa using hl) rfl (alike_endCall s c)
  · rename_i hl
    exact .prepares (by simpa using hl) ((alike_leaveLifecycle s c).setPhase _)

theorem takes_conclude (s : TaskSet κ ξ) (c : CallId) (b : Bool) :
    Takes c s .concluding (s.conclude c b).1 (s.conclude c b).2 := by
  unfold conclude
  split
  · rename_i hl
    exact .expires (by simpa using hl) rfl (alike_endCall s c)
  · rename_i hl
    have hl' : (s.notify .rooted).lifecycle ≠ .terminated := by simpa [notify] using hl
    have hlaunched : (s.notify .rooted).launched c b = ((s.registry.tasks.map (·.id)).foldl
        startLoop ({ s with isRooted := true, rootCancelled := b }.notify .rooted)).settled c := by
      rw [← startLoops_settled]
      rfl
    have hend : ∀ (u : TaskSet κ ξ) (m : String) (fs : List (String × Field)),
        Alike [] (u.settled c) (({ u.record .debug m fs with lifecycle := .started }).endCall c) :=
      fun u m fs => (alike_record (u.settled c) .debug m fs).then
        (alike_endCall { u.record .debug m fs with lifecycle := .started } c)
    refine .alike (alike_notify rfl) (.starts b hl' ?_)
    rw [hlaunched]
    exact hend _ _ _

theorem takes_giveUp (s : TaskSet κ ξ) (c : CallId) (current : Entry) (source : Fault) :
    Takes c s (.aborting current source) (s.giveUp c current source).1
      (s.giveUp c current source).2 := by
  have hend : ∀ u : TaskSet κ ξ, u = s.givenUp c → Alike [] u (s.giveUp c current source).1 := by
    rintro u rfl
    unfold givenUp giveUp
    by_cases hl : s.lifecycle = .terminated
    · rw [if_pos hl, if_pos (by simp [hl])]
      exact alike_endCall s c
    · rw [if_neg hl, if_neg (by simp [hl])]
      exact alike_endCall _ c
  exact .givesUp (hend _ rfl)

theorem takes_consider (s : TaskSet κ ξ) (c : CallId) (r : Registration κ ξ) :
    Takes c s (.admitting r) (s.consider c r).1 (s.consider c r).2 := by
  unfold consider
  split
  · rename_i hr
    exact .refuses hr (alike_endCall s c)
  · rename_i hr
    split
    · rename_i hu
      exact .comesLate hr hu ((alike_leaveLifecycle s c).setPhase _)
    · rename_i hu
      exact .enrolls (.inl ⟨rfl, by simpa using hu⟩) hr (alike_endCall _ c)

theorem takes_reconsider (s : TaskSet κ ξ) (c : CallId) (r : Registration κ ξ) :
    Takes c s (.readmitting r) (s.reconsider c r).1 (s.reconsider c r).2 := by
  unfold reconsider
  split
  · rename_i hr
    exact .loses hr ((alike_tearDown (s.without c) r .stopped).then
      (alike_endCall (s.tearDown r .stopped) c))
  · rename_i hr
    exact .enrolls (.inr rfl) hr (alike_endCall _ c)

/-- Startup comes to its next task, or to its end. -/
theorem takes_goOn (s : TaskSet κ ξ) (c : CallId) (es : List Entry) (b : Bool) :
    Takes c (s.setPhase c (.before es)) (.before es) (s.goOn c es b).1 (s.goOn c es b).2 := by
  refine .alike ((alike_lockLifecycle s c).setPhase _) ?_
  cases es with
  | nil => exact (takes_conclude _ c b).ite
  | cons next rest => exact (takes_prepare _ c next rest).ite

theorem takes_openUp (s : TaskSet κ ξ) (c : CallId) (b : Bool) :
    Takes c s .opening (s.openUp c b).1 (s.openUp c b).2 := by
  unfold openUp
  cases hl : s.lifecycle with
  | pending =>
    refine .opens hl (.alike ?_ (takes_goOn _ c s.registry.schedule b))
    exact (alike_leaveLifecycle { s with lifecycle := .starting } c).setPhase _
  | starting => exact .passes (.inl hl) (alike_endCall s c)
  | started => exact .passes (.inr hl) (alike_endCall s c)
  | aborted => exact .fails hl (alike_endCall s c)
  | terminated => exact .expires hl rfl (alike_endCall s c)

theorem takes_demolish (s : TaskSet κ ξ) (c : CallId) :
    Takes c s .demolishing (s.demolish c).1 (s.demolish c).2 := by
  rw [demolish_eq]
  split
  · exact .demolishes (alike_endCall _ c)
  · exact .drains (.refl _)

theorem takes_poll {x : Call κ ξ} (hx : s.call? c = some x) (b : Bool) :
    Takes c s x.phase (s.poll c b).1 (s.poll c b).2 := by
  unfold poll
  simp only [hx]
  cases hp : x.phase with
  | admitting r => exact (takes_consider s c r).ite
  | initializing r => exact .waits s _
  | readmitting r => exact (takes_reconsider s c r).ite
  | queued =>
    dsimp only
    split
    · rename_i hheld
      refine .unqueues (by simpa [Lock.isHeldBy] using hheld) (.alike (alike_lockLifecycle _ c) ?_)
      exact (takes_openUp _ c b).ite
    · exact .waits s _
  | opening => exact (takes_openUp s c b).ite
  | checking next rest => exact (takes_prepare s c next rest).ite
  | preparing current rest => exact .waits s _
  | aborting current source => exact (takes_giveUp s c current source).ite
  | concluding => exact (takes_conclude s c b).ite
  | demolishing => exact (takes_demolish s c).ite
  | draining =>
    dsimp only
    split
    · exact .ends (alike_endCall s c)
    · exact .waits s _

theorem mem_addCall_self (s : TaskSet κ ξ) (c : CallId) (p : CallPhase κ ξ) :
    ⟨c, p⟩ ∈ (s.addCall c p).calls :=
  List.mem_append_right _ (List.mem_singleton_self _)

theorem mem_without_of_ne {x : Call κ ξ} (hne : x.id ≠ c) :
    x ∈ (s.without c).calls ↔ x ∈ s.calls := by
  simp [without, hne]

theorem mem_setPhase_of_ne {x : Call κ ξ} {q : CallPhase κ ξ} (hne : x.id ≠ c) :
    x ∈ (s.setPhase c q).calls ↔ x ∈ s.calls := by
  refine ⟨fun hx => ?_, fun hx => List.mem_map.2 ⟨x, hx, by simp [hne]⟩⟩
  rcases mem_setPhase hx with rfl | ⟨hx, -⟩
  · exact absurd rfl hne
  · exact hx

/-- A turn leaves the other calls alone. -/
theorem Takes.others {p : CallPhase κ ξ} {turn : CallTurn} (h : Takes c s p t turn) {x : Call κ ξ}
    (hne : x.id ≠ c) : x ∈ t.calls ↔ x ∈ s.calls := by
  have hcleared : ∀ u : TaskSet κ ξ, u.cleared.calls = u.calls := fun u =>
    congrArg (·.calls) (desk_cleared u)
  induction h with
  | waits s p => rfl
  | alike hs _ ih => exact hs.calls ▸ ih
  | unqueues _ _ ih => exact ih.trans (mem_setPhase_of_ne hne)
  | opens hl _ ih => exact ih.trans (mem_setPhase_of_ne hne)
  | prepares hl ht => rw [ht.calls, mem_setPhase_of_ne hne]
  | starts b hl ht => rw [ht.calls, launched, (startLoops_same _ _).2.1, mem_without_of_ne hne]
  | givesUp ht =>
    rw [ht.calls, givenUp, mem_without_of_ne hne]
    split <;> rfl
  | comesLate hr hu ht => rw [ht.calls, mem_setPhase_of_ne hne]
  | enrolls hp hr ht => rw [ht.calls, (enroll_same _ _ c).2.1, mem_without_of_ne hne]
  | demolishes ht => rw [ht.calls, mem_without_of_ne hne, hcleared]
  | drains ht => rw [ht.calls, mem_setPhase_of_ne hne, hcleared]
  | passes _ ht => rw [ht.calls, mem_without_of_ne hne]
  | fails _ ht => rw [ht.calls, mem_without_of_ne hne]
  | expires _ _ ht => rw [ht.calls, mem_without_of_ne hne]
  | refuses _ ht => rw [ht.calls, mem_without_of_ne hne]
  | loses _ ht => rw [ht.calls, mem_without_of_ne hne]
  | ends ht => rw [ht.calls, mem_without_of_ne hne]

/-! ## Events that give a call its turn -/

/-- The `init` of which an event brings the outcome: on whose behalf it was, and how it ended. -/
def outcome? (s : TaskSet κ ξ) : SetEvent κ ξ → Option (CallId × Except Fault Unit)
  | .initialized c result _ =>
    (s.call? c).bind fun x => x.phase.initTicket?.map fun k => (k, result)
  | _ => none

/-- What is registered of a task has been initialized. -/
def marked (s : TaskSet κ ξ) (id : TaskId) : TaskSet κ ξ :=
  { s with registry := s.registry.modify id fun r => { r with state := .initialized } }

/-- The event gives a call its turn, with which the set comes to `t`. -/
inductive Gives (s : TaskSet κ ξ) : SetEvent κ ξ → TaskSet κ ξ → CallTurn → Prop
  | begins {c : CallId} {request : Request κ ξ} {b : Bool} {t : TaskSet κ ξ} {turn : CallTurn} :
      Takes c (s.addCall c (request.phase c)) (request.phase c) t turn →
      Gives s (.begin c request b) t turn
  | polls {c : CallId} {p : CallPhase κ ξ} {b : Bool} {t : TaskSet κ ξ} {turn : CallTurn} :
      ⟨c, p⟩ ∈ s.calls → Takes c s p t turn → Gives s (.poll c b) t turn
  /-- The task of a late registration has been initialized. -/
  | comesBack {c : CallId} {r : Registration κ ξ} {b : Bool} {t : TaskSet κ ξ}
      {turn : CallTurn} : ⟨c, .initializing r⟩ ∈ s.calls →
      Takes c (s.setPhase c (.readmitting { r with state := .initialized }))
        (.readmitting { r with state := .initialized }) t turn →
      Gives s (.initialized c (.ok ()) b) t turn
  /-- The task of a late registration could not be initialized. -/
  | breaks {c : CallId} {r : Registration κ ξ} {source : Fault} {b : Bool} {t : TaskSet κ ξ} :
      ⟨c, .initializing r⟩ ∈ s.calls → Alike [] (s.without c) t →
      Gives s (.initialized c (.error source) b) t
        (.returned (.error (.initFailed r.task.name source)))
  /-- Startup has initialized a task. -/
  | goesOn {c : CallId} {current : Entry} {rest : List Entry} {b : Bool} {t : TaskSet κ ξ}
      {turn : CallTurn} : ⟨c, .preparing current rest⟩ ∈ s.calls →
      Takes c ((s.marked current.task.id).setPhase c (.before rest)) (.before rest) t turn →
      Gives s (.initialized c (.ok ()) b) t turn
  /-- Startup could not initialize a task. -/
  | aborts {c : CallId} {current : Entry} {rest : List Entry} {source : Fault} {b : Bool}
      {t : TaskSet κ ξ} {turn : CallTurn} : ⟨c, .preparing current rest⟩ ∈ s.calls →
      Takes c (s.setPhase c (.aborting current source)) (.aborting current source) t turn →
      Gives s (.initialized c (.error source) b) t turn
  /-- Nobody is waiting for what the event brings. -/
  | misses {e : SetEvent κ ξ} : e.begins? = none → s.outcome? e = none → Gives s e s .wait

theorem gives_begin (hnew : (s.call? c).isSome = false) (request : Request κ ξ) (b : Bool) :
    Gives s (.begin c request b) (s.begin c request b).1 (s.begin c request b).2 := by
  have hcall := call?_of_mem hnew (request.phase c)
  refine .begins ?_
  cases request with
  | register task args options order extra =>
    exact .alike (alike_lockLifecycle _ c)
      (takes_poll (s := (s.addCall c _).lockLifecycle c) hcall b)
  | init =>
    exact .alike (alike_locks fun _ _ hl => Lock.holder_acquire hl c)
      (takes_poll (s := { s.addCall c .queued with startupLock := s.startupLock.acquire c })
        hcall b)
  | destroy =>
    exact .alike (alike_lockLifecycle _ c)
      (takes_poll (s := (s.addCall c _).lockLifecycle c) hcall b)

theorem gives_initialized (s : TaskSet κ ξ) (c : CallId) (result : Except Fault Unit) (b : Bool) :
    Gives s (.initialized c result b) (s.initialized c result b).1
      (s.initialized c result b).2 := by
  unfold initialized
  cases hx : s.call? c with
  | none => exact .misses rfl (by simp [outcome?, hx])
  | some x =>
    have hc := mem_of_call? hx
    -- the call goes on in another phase, and the lock that it asks for changes nothing else
    have hback : ∀ {u : TaskSet κ ξ} {p q : CallPhase κ ξ}, ⟨c, p⟩ ∈ u.calls →
        Takes c (u.setPhase c q) q (((u.setPhase c q).lockLifecycle c).poll c b).1
          (((u.setPhase c q).lockLifecycle c).poll c b).2 := by
      intro u p q hp
      have hcall : ((u.setPhase c q).lockLifecycle c).call? c = some ⟨c, q⟩ := call?_setPhase hp q
      exact .alike (alike_lockLifecycle _ c) (takes_poll hcall b)
    dsimp only
    cases hp : x.phase with
    | initializing r =>
      rw [hp] at hc
      cases result with
      | error source => exact .breaks hc (alike_endCall s c)
      | ok _ => exact .comesBack hc (hback hc)
    | preparing current rest =>
      rw [hp] at hc
      cases result with
      | error source =>
        refine .aborts hc (.alike ((alike_record s .error
          "Task failed to initialize. Aborting startup."
          [("task", .text current.task.name), ("error", .text source.text)]).setPhase _) ?_)
        exact hback (u := s.record .error "Task failed to initialize. Aborting startup."
          [("task", .text current.task.name), ("error", .text source.text)]) hc
      | ok _ => exact .goesOn hc (takes_goOn _ c rest b)
    | _ => exact .misses rfl (by simp [outcome?, hx, hp, CallPhase.initTicket?])

variable {h : List (SetOccurrence κ ξ)} {e : SetEvent κ ξ}

theorem gives_of_perform (hs : Sound (begun h) s) (hall : allows h s e = true)
    (hc : e.caller? = some c) :
    ∃ turn, (s.perform e).2 = .call turn ∧ Gives s e (s.perform e).1 turn := by
  cases e with
  | begin d request b =>
    exact ⟨_, rfl, gives_begin (hs.call?_of_new (allows_begin.1 hall).2) request b⟩
  | poll d b =>
    refine ⟨_, rfl, ?_⟩
    cases hx : s.call? d with
    | none =>
      have hwait : s.poll d b = (s, .wait) := by simp [poll, hx]
      simp only [perform, hwait]
      exact .misses rfl rfl
    | some x => exact .polls (mem_of_call? hx) (takes_poll hx b)
  | initialized d result b => exact ⟨_, rfl, gives_initialized s d result b⟩
  | _ => simp [SetEvent.caller?] at hc

/-- An event that gives a call its turn leaves the other calls alone. -/
theorem Gives.others {turn : CallTurn} (hgives : Gives s e t turn) (hc : e.caller? = some c)
    {x : Call κ ξ} (hne : x.id ≠ c) : x ∈ t.calls ↔ x ∈ s.calls := by
  cases hgives with
  | begins ht =>
    obtain rfl := Option.some.inj hc
    rw [ht.others hne]
    refine ⟨fun hx => (List.mem_append.1 hx).resolve_right fun hx => ?_, List.mem_append_left _⟩
    obtain rfl := List.mem_singleton.1 hx
    exact hne rfl
  | polls hp ht =>
    obtain rfl := Option.some.inj hc
    exact ht.others hne
  | comesBack hp ht =>
    obtain rfl := Option.some.inj hc
    rw [ht.others hne, mem_setPhase_of_ne hne]
  | breaks hp ht =>
    obtain rfl := Option.some.inj hc
    rw [ht.calls, mem_without_of_ne hne]
  | goesOn hp ht =>
    obtain rfl := Option.some.inj hc
    rw [ht.others hne, mem_setPhase_of_ne hne]
    rfl
  | aborts hp ht =>
    obtain rfl := Option.some.inj hc
    rw [ht.others hne, mem_setPhase_of_ne hne]
  | misses _ _ => rfl

/-! ## Deciding what calls have done -/

/-- What an occurrence has the call return. -/
def result? (c : CallId) (o : SetOccurrence κ ξ) : Option (Except SupervisionError Unit) :=
  match (o.before.perform o.event).2 with
  | .call (.returned result) => if o.event.caller? = some c then some result else none
  | _ => none

theorem returns_iff {o : SetOccurrence κ ξ} {result : Except SupervisionError Unit} :
    Returns o c result ↔ result? c o = some result := by
  unfold Returns result?
  constructor
  · rintro ⟨hc, hanswer⟩
    simp [hc, hanswer]
  · intro hresult
    split at hresult
    · rename_i result' hanswer
      by_cases hc : o.event.caller? = some c
      · rw [if_pos hc] at hresult
        exact ⟨hc, by rw [hanswer, Option.some.inj hresult]⟩
      · simp [hc] at hresult
    · contradiction

instance {o : SetOccurrence κ ξ} {result : Except SupervisionError Unit} :
    Decidable (Returns o c result) := decidable_of_iff _ returns_iff.symm

/-- What an occurrence begins the call for. -/
def begins? (c : CallId) (o : SetOccurrence κ ξ) : Option CallKind :=
  match o.event with
  | .begin d request _ => if d = c then some request.kind else none
  | _ => none

theorem began_begin (h : List (SetOccurrence κ ξ)) (s : TaskSet κ ξ) (c : CallId)
    (request : Request κ ξ) (b : Bool) : Began (h ++ [⟨s, .begin c request b⟩]) c request.kind :=
  ⟨_, List.mem_append_right _ (List.mem_singleton_self _), request, b, rfl, rfl⟩

/-- A call in progress is what it has begun as. -/
theorem kind_of_began (hrun : (setSystem κ ξ).Run h s) (hall : allows h s e = true) {k : CallKind}
    (hb : Began (h ++ [⟨s, e⟩]) c k) {p : CallPhase κ ξ} (hp : ⟨c, p⟩ ∈ s.calls) : p.kind = k :=
  ((kind_of_run hrun ⟨c, p⟩ hp).append _).unique (hrun.next hall) hb

theorem kind_of_begin (hrun : (setSystem κ ξ).Run h s) {k : CallKind} {request : Request κ ξ}
    {b : Bool} (hall : allows h s (.begin c request b) = true)
    (hb : Began (h ++ [⟨s, .begin c request b⟩]) c k) : request.kind = k := by
  have hall : (setSystem κ ξ).allows h s (.begin c request b) = true := hall
  exact (began_begin h s c request b).unique (hrun.next hall) hb

theorem began_iff {k : CallKind} : Began h c k ↔ ∃ o ∈ h, begins? c o = some k := by
  constructor
  · rintro ⟨o, ho, request, b, hevent, hk⟩
    exact ⟨o, ho, by simp [begins?, hevent, hk]⟩
  · rintro ⟨o, ho, hbegins⟩
    unfold begins? at hbegins
    split at hbegins
    · rename_i d request b hevent
      by_cases hd : d = c
      · subst hd
        rw [if_pos rfl] at hbegins
        exact ⟨o, ho, request, b, hevent, Option.some.inj hbegins⟩
      · simp [hd] at hbegins
    · contradiction

instance {k : CallKind} : Decidable (Began h c k) := decidable_of_iff _ began_iff.symm

/-! ## Other events -/

/-- The set has become at most smaller. -/
structure Wanes (s t : TaskSet κ ξ) : Prop where
  lifecycle : t.lifecycle = s.lifecycle
  calls : ∀ x ∈ t.calls, x ∈ s.calls
  registry : List.Sublist t.registry s.registry

theorem GoesOn.wanes (h : GoesOn torn s t) : Wanes s t :=
  ⟨h.lifecycle, fun x hx => h.calls ▸ hx, by rw [h.registry]⟩

theorem wanes_unregister (s : TaskSet κ ξ) (task : TaskRef) : Wanes s (s.unregister task).1 := by
  obtain ⟨hl, hcalls, hreg⟩ := unregister_same s task
  exact ⟨hl, fun _ hx => hcalls ▸ hx, by rw [hreg]; exact List.filter_sublist⟩

theorem wanes_abandon (s : TaskSet κ ξ) (c : CallId) : Wanes s (s.abandon c) := by
  unfold abandon
  split
  · have hend := alike_endCall s c
    exact ⟨hend.lifecycle, fun x hx => mem_without (hend.calls ▸ hx), by rw [hend.registry]; rfl⟩
  · exact (GoesOn.refl s).wanes

/-- A loop that has failed takes out at most what is registered of its task. -/
theorem wanes_failing {x : Loop} {ending : Ending Unit} {error : Fault}
    (hx : s.loop? x.id = some x) (hfail : ending.error? = some error) (now : Nat) :
    Wanes s (s.ran x.id now ending).1 := by
  by_cases hidle : s.dropped = true ∨ s.registry.lookup? x.task.id = none
  · exact (goesOn_ran hfail hx hidle now).1.wanes
  · obtain ⟨hd, hsome⟩ := not_or.1 hidle
    obtain ⟨r, hr⟩ := Option.ne_none_iff_exists'.1 hsome
    have hgo := (goesOn_fail (s := s.warned error) hr error).1
    rw [ran_of_error? hx hfail, if_neg hd]
    exact ⟨hgo.lifecycle, fun y hy => hgo.calls ▸ hy,
      by rw [hgo.registry]; exact List.filter_sublist⟩

theorem wanes_ran (hs : Sound us s) {l : LoopId}
    (hrun : ∃ x ∈ s.loops, x.id = l ∧ x.phase = .running) (now : Nat) (ending : Ending Unit) :
    Wanes s (s.ran l now ending).1 := by
  rcases ran_cases s l now ending with ⟨-, heq⟩ | ⟨x, hx, ⟨-, heq⟩ | ⟨error, hfail, -⟩⟩
  · rw [heq]
    exact (GoesOn.refl s).wanes
  · rw [heq]
    exact (goesOn_rest_of_running hs hrun now).wanes
  · obtain ⟨-, rfl⟩ := loop?_eq_some hx
    exact wanes_failing hx hfail now

/-- Nothing is registered in a set that has been dropped. -/
theorem registry_drop (s : TaskSet κ ξ) : s.drop.registry = [] := by
  unfold drop
  generalize (if s.lifecycle == .started then s.cancelRoot else s) = t
  have htear := goesOn_foldl (fun s (r : Registration κ ξ) => goesOn_tearDown s r .destroyed)
    t.registry { t with registry := [], dropped := true }
  have hforget := goesOn_foldl_silent
    (fun s (r : Registration κ ξ) => goesOn_elim_forgetLoop s r.loop) t.registry
    (t.registry.foldl (fun s r => s.tearDown r .destroyed)
      { t with registry := [], dropped := true })
  exact ((htear.then hforget).then (goesOn_forgetRoot _)).registry

theorem wanes_drop (s : TaskSet κ ξ) : Wanes s s.drop := by
  have hdesk := desk_drop s
  have hcalls : s.drop.calls = s.calls := congrArg (·.calls) hdesk
  refine ⟨congrArg (·.lifecycle) hdesk, fun x hx => hcalls ▸ hx, ?_⟩
  rw [registry_drop]
  exact List.nil_sublist _

/-- An event that is no call's turn makes a set at most smaller. -/
theorem wanes_of_perform (hs : Sound (begun h) s) (hall : allows h s e = true)
    (hc : e.caller? = none) : Wanes s (s.perform e).1 := by
  cases e with
  | abandon c => exact wanes_abandon s c
  | unregister task => exact wanes_unregister s task
  | pollLoop l now => exact (goesOn_pollLoop hs l now).wanes
  | ran l now ending => exact wanes_ran hs (allows_ran.1 hall) now ending
  | reported l poolName result => exact (goesOn_reported s l poolName result).wanes
  | killLoop l => exact (goesOn_killLoop s l).wanes
  | cancelRoot => exact (goesOn_cancelRoot s).wanes
  | drop => exact wanes_drop s
  | _ => simp [SetEvent.caller?] at hc

/-- A call that an event gives no turn was in progress before, in the same phase. -/
theorem mem_calls_of_other (hs : Sound (begun h) s) (hall : allows h s e = true) {x : Call κ ξ}
    (hx : x ∈ (s.perform e).1.calls) (hne : e.caller? ≠ some x.id) : x ∈ s.calls := by
  cases hc : e.caller? with
  | none => exact (wanes_of_perform hs hall hc).calls _ hx
  | some c =>
    obtain ⟨turn, -, hgives⟩ := gives_of_perform hs hall hc
    exact (hgives.others hc fun (hxc : x.id = c) => hne (hxc ▸ hc)).1 hx

end TaskSet

end Overseer
