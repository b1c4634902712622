import Overseer.Proofs.Supervision.Sound

/-!
# Turns of calls

A turn of a call is a course of its set, and it tells what that course has done: it asks for an
`init` exactly if the deed is `Deed.init`, and it refuses a late registration exactly if the
deed is `Deed.refuse` (`Turns`). There is one lemma for each function that a call can come to, and
from them `turns_poll`, `turns_begin` and `turns_initialized`.
-/

namespace Overseer

variable {κ ξ : Type}

namespace CallPhase

/-- The registration on whose behalf a call is initializing a task. -/
def initTicket? : CallPhase κ ξ → Option CallId
  | .initializing r => some r.ticket
  | .preparing current _ => some current.ticket
  | _ => none

/-- The task of a late registration whose `init` has begun. -/
def late? : CallPhase κ ξ → Option TaskRef
  | .initializing r => some r.task
  | .readmitting r => some r.task
  | _ => none

end CallPhase

/-- The first phase of a call. -/
def Request.phase (c : CallId) : Request κ ξ → CallPhase κ ξ
  | .register task args options order extra =>
    .admitting {
      ticket := c, task := task, args := args, options := options, order := order,
      extra := extra }
  | .init => .queued
  | .destroy => .demolishing

namespace SetEvent

/-- The call that gets its turn. -/
def caller? : SetEvent κ ξ → Option CallId
  | .begin c _ _ => some c
  | .poll c _ => some c
  | .initialized c _ _ => some c
  | _ => none

/-- The call that goes on, unless the `init` that it waited for has failed. -/
def resumes? : SetEvent κ ξ → Option CallId
  | .poll c _ => some c
  | .initialized c (.ok _) _ => some c
  | _ => none

end SetEvent

namespace TaskSet

/-- What a turn of a call has begun to initialize. -/
def turnInit? (t : TaskSet κ ξ) (c : CallId) : CallTurn → Option CallId
  | .callInit _ _ => (t.call? c).bind (·.phase.initTicket?)
  | .wait => none
  | .returned _ => none

/-- What a turn has refused of a late registration. -/
def turnRefusal? (late : Option TaskRef) : CallTurn → Option TaskRef
  | .returned (.error _) => late
  | _ => none

variable {s t u : TaskSet κ ξ} {us : List CallId} {c : CallId} {d : Option Deed}
  {late : Option TaskRef} {r : TaskSet κ ξ × CallTurn}

theorem call?_of_mem (h : (s.call? c).isSome = false) (p : CallPhase κ ξ) :
    (s.addCall c p).call? c = some ⟨c, p⟩ := by
  have hnone : s.calls.find? (·.id == c) = none := by simpa [call?] using h
  simp [call?, addCall, List.find?_append, hnone]

theorem mem_of_call? {x : Call κ ξ} (h : s.call? c = some x) : ⟨c, x.phase⟩ ∈ s.calls := by
  have hid : x.id = c := by simpa using List.find?_some h
  subst hid
  exact List.mem_of_find?_eq_some h

theorem call?_setPhase {p : CallPhase κ ξ} (h : ⟨c, p⟩ ∈ s.calls) (q : CallPhase κ ξ) :
    (s.setPhase c q).call? c = some ⟨c, q⟩ := by
  cases hf : (s.setPhase c q).call? c with
  | none => simpa using List.find?_eq_none.1 hf _ (mem_setPhase_self h)
  | some x =>
    have hid : x.id = c := by simpa using List.find?_some hf
    rcases mem_setPhase (List.mem_of_find?_eq_some hf) with rfl | ⟨_, hne⟩
    · rfl
    · exact absurd hid hne

/-! ## Turns of calls -/

/-- The deed `d` is what a turn of the call `c` tells, and nothing leaves but by a destroy call.
`late` is the task of a registration whose `init` has succeeded. -/
structure Tale (late : Option TaskRef) (c : CallId) (t : TaskSet κ ξ) (turn : CallTurn)
    (d : Option Deed) : Prop where
  initialized : t.turnInit? c turn = d.bind (·.initialized?)
  complete : ∀ task args, turn = .callInit task args → (d.bind (·.initialized?)).isSome = true
  refused : turnRefusal? late turn = d.bind (·.refused?)
  displaced : d.bind (·.displaced?) = none
  way : d.bind (·.way?) ≠ some .unregistered

/-- A call's turn is a course, and it tells its deed. -/
def Turns (late : Option TaskRef) (c : CallId) (s : TaskSet κ ξ) (r : TaskSet κ ξ × CallTurn) :
    Prop :=
  ∃ d, Course s d r.1 ∧ Tale late c r.1 r.2 d

theorem Turns.after (h : Course s none t) (h' : Turns late c t r) : Turns late c s r := by
  obtain ⟨d, hd, htale⟩ := h'
  exact ⟨d, h.after hd, htale⟩

/-- A turn that ends in a wait has begun no `init` and refused nothing. -/
theorem tale_wait (hinit : d.bind (·.initialized?) = none) (hrefused : d.bind (·.refused?) = none)
    (hdisplaced : d.bind (·.displaced?) = none) (hway : d.bind (·.way?) ≠ some .unregistered) :
    Tale late c t .wait d where
  initialized := hinit.symm
  complete := fun task args h => by simp at h
  refused := hrefused.symm
  displaced := hdisplaced
  way := hway

/-- A turn in which the call returns has begun no `init`. -/
theorem tale_returned {result : Except SupervisionError Unit}
    (hinit : d.bind (·.initialized?) = none)
    (hrefused : turnRefusal? late (.returned result) = d.bind (·.refused?))
    (hdisplaced : d.bind (·.displaced?) = none) (hway : d.bind (·.way?) ≠ some .unregistered) :
    Tale late c t (.returned result) d where
  initialized := hinit.symm
  complete := fun task args h => by simp at h
  refused := hrefused
  displaced := hdisplaced
  way := hway

/-- A turn in which an `init` begins. -/
theorem tale_callInit {p q : CallPhase κ ξ} {k : CallId} {task : TaskRef} {args : List Argument}
    (hc : ⟨c, p⟩ ∈ s.calls) (hq : q.initTicket? = some k) :
    Tale late c (s.setPhase c q) (.callInit task args) (some (.init k)) where
  initialized := by simp [turnInit?, call?_setPhase hc, hq, Deed.initialized?]
  complete := fun _ _ _ => rfl
  refused := rfl
  displaced := rfl
  way := by simp [Deed.way?]

theorem turns_wait (h : Course s none t) : Turns late c s (t, .wait) :=
  ⟨none, h, tale_wait rfl rfl rfl (by simp)⟩

/-- A call goes on if it holds the lock. -/
theorem Turns.ite {b : Bool} (h : Turns late c s r) (h' : Course s none t) :
    Turns late c s (if b then r else (t, .wait)) := by
  split
  · exact h
  · exact turns_wait h'

theorem course_finish (s : TaskSet κ ξ) (c : CallId) (result : Except SupervisionError Unit) :
    Course s none (s.finish c result).1 := .quietly (.finishes s c) (goesOn_endCall s c).course

theorem turns_finish (h : Course s none t) (c : CallId) (result : Except SupervisionError Unit) :
    Turns none c s (t.finish c result) :=
  ⟨none, h.after (course_finish t c result),
    tale_returned rfl (by cases result <;> rfl) rfl (by simp)⟩

theorem turns_finish_ok (h : Course s none t) (c : CallId) :
    Turns late c s (t.finish c (.ok ())) :=
  ⟨none, h.after (course_finish t c (.ok ())), tale_returned rfl rfl rfl (by simp)⟩

theorem turns_prepare {next : Entry} {rest : List Entry} (hc : ⟨c, .checking next rest⟩ ∈ s.calls) :
    Turns none c s (s.prepare c next rest) := by
  unfold prepare
  split
  · exact turns_finish (.stays s) c _
  · rename_i hl
    have hgo := goesOn_leaveLifecycle s c
    have hc' : ⟨c, .checking next rest⟩ ∈ (s.leaveLifecycle c).calls := hgo.calls ▸ hc
    have hl' : (s.leaveLifecycle c).lifecycle ≠ .terminated := by
      rw [hgo.lifecycle]
      simpa using hl
    exact ⟨_, hgo.course.after (Move.prepares hc' hl').course, tale_callInit hc' rfl⟩

/-- Startup is over, and the set has started. -/
def settled (s : TaskSet κ ξ) (c : CallId) : TaskSet κ ξ :=
  { s with lifecycle := .started }.without c

theorem startLoops_settled (ids : List TaskId) (s : TaskSet κ ξ) (c : CallId) :
    ids.foldl startLoop (s.settled c) = (ids.foldl startLoop s).settled c := by
  refine List.foldl_hom (fun s : TaskSet κ ξ => s.settled c) fun s id => ?_
  cases h : s.registry.lookup? id with
  | none =>
    have h' : (s.settled c).registry.lookup? id = none := h
    simp [startLoop, h, h']
  | some r =>
    have h' : (s.settled c).registry.lookup? id = some r := h
    rw [startLoop_eq h, startLoop_eq h']
    rfl

theorem turns_conclude (hc : ⟨c, .concluding⟩ ∈ s.calls) (p : Bool) :
    Turns none c s (s.conclude c p) := by
  unfold conclude
  split
  · exact turns_finish (.stays s) c _
  · rename_i hl
    have hl' : (s.notify .rooted).lifecycle ≠ .terminated := by simpa [notify] using hl
    have hmove := Move.starts (s := s.notify .rooted) p hc hl'
    have hstart : Course s none (((s.registry.tasks.map (·.id)).foldl startLoop
        ({ s with isRooted := true, rootCancelled := p }.notify .rooted)).settled c) := by
      rw [← startLoops_settled]
      exact (goesOn_notify rfl).course.after hmove.course
    have hend : ∀ (u : TaskSet κ ξ) (m : String) (fs : List (String × Field)),
        GoesOn [] (u.settled c) (({ u.record .debug m fs with lifecycle := .started }).endCall c) :=
      fun u m fs => (goesOn_record (u.settled c) .debug m fs).then
        (goesOn_endCall { u.record .debug m fs with lifecycle := .started } c)
    exact ⟨none, hstart.after (hend _ _ _).course, tale_returned rfl rfl rfl (by simp)⟩

theorem turns_giveUp {current : Entry} {source : Fault}
    (hc : ⟨c, .aborting current source⟩ ∈ s.calls) :
    Turns none c s (s.giveUp c current source) := by
  unfold giveUp
  split
  · exact turns_finish (.stays s) c _
  · rename_i hl
    have hmove := Move.givesUp hc (by simpa using hl)
    exact ⟨none, hmove.course.after (goesOn_endCall _ c).course,
      tale_returned rfl rfl rfl (by simp)⟩

/-- A set is torn down, with every loop of its registrations stopped. -/
theorem goesOn_retire_all (s : TaskSet κ ξ) (rs : Registry κ ξ) (why : Departure) :
    GoesOn rs.tasks s (rs.foldl (fun s r => s.retire r why) s) ∧
      ∀ r ∈ rs, (rs.foldl (fun s r => s.retire r why) s).IsHalted r.loop := by
  have hgo : ∀ (s : TaskSet κ ξ) (r : Registration κ ξ), GoesOn [r.task] s (s.retire r why) :=
    fun s r => goesOn_retire s r why
  have htasks : rs.tasks = List.flatMap (fun r => [r.task]) rs := List.map_eq_flatMap
  rw [htasks]
  exact ⟨goesOn_foldl hgo rs s, halted_foldl hgo (fun s r => halted_retire s r why) rs s⟩

/-- Everything is torn down, and the call waits for the loops unless they have all ended. -/
theorem turns_retire_all (hc : ⟨c, .demolishing⟩ ∈ s.calls) (hroot : GoesOn [] s t)
    (hclear : GoesOn [] { t with lifecycle := .terminated, registry := [] } u) {v : TaskSet κ ξ}
    (hv : v = (t.registry.foldl (fun s r => s.retire r .destroyed) u).forgetRoot) :
    Turns late c s
      (if v.isQuiet then v.finish c (.ok ()) else (v.setPhase c .draining, .wait)) := by
  subst hv
  obtain ⟨hgo, hhalt⟩ := goesOn_retire_all u t.registry .destroyed
  have hall := (hclear.trans hgo).then (goesOn_forgetRoot _)
  have hmove := Move.demolishes hall fun r hr => (goesOn_forgetRoot _).halted (hhalt r hr)
  have hcourse := hroot.course.after hmove.course
  split
  · exact ⟨_, hcourse.then (course_finish _ c (.ok ())),
      tale_returned rfl rfl rfl (by simp [Deed.way?])⟩
  · have hc' := (hall.calls.trans hroot.calls).symm ▸ hc
    have hshift := Move.shifts hc' .drain
    exact ⟨_, hcourse.then hshift.course, tale_wait rfl rfl rfl (by simp [Deed.way?])⟩

theorem turns_demolish (hc : ⟨c, .demolishing⟩ ∈ s.calls) : Turns late c s (s.demolish c) := by
  have hroot := goesOn_cancelRoot_if s
  unfold demolish
  generalize (if s.lifecycle == .started then s.cancelRoot else s) = t at hroot ⊢
  refine turns_retire_all hc hroot ?_ rfl
  split
  · exact .refl _
  · exact goesOn_record _ _ _ _

theorem turns_consider {r : Registration κ ξ} (hc : ⟨c, .admitting r⟩ ∈ s.calls) :
    Turns none c s (s.consider c r) := by
  unfold consider
  split
  · exact turns_finish (.stays s) c _
  · rename_i hr
    split
    · rename_i hu
      have hgo := goesOn_leaveLifecycle s c
      have hc' : ⟨c, .admitting r⟩ ∈ (s.leaveLifecycle c).calls := hgo.calls ▸ hc
      have hu' : (s.leaveLifecycle c).isUnderway = true := by
        rw [isUnderway, hgo.lifecycle]
        exact hu
      exact ⟨_, hgo.course.after (Move.comesLate hc' hu').course, tale_callInit hc' rfl⟩
    · have hmove := Move.enrolls hc (Or.inl rfl) hr
      exact ⟨_, hmove.course.then (goesOn_endCall _ c).course,
        tale_returned rfl rfl rfl (by simp [Deed.way?])⟩

theorem turns_reconsider {r : Registration κ ξ} (hc : ⟨c, .readmitting r⟩ ∈ s.calls) :
    Turns (some r.task) c s (s.reconsider c r) := by
  unfold reconsider
  split
  · have hgo : GoesOn [r.task] (s.without c) ((s.tearDown r .stopped).endCall c) :=
      (goesOn_tearDown (s.without c) r .stopped).then (goesOn_endCall (s.tearDown r .stopped) c)
    exact ⟨_, (Move.refuses hc hgo).course, tale_returned rfl rfl rfl (by simp [Deed.way?])⟩
  · rename_i hr
    have hmove := Move.enrolls hc (Or.inr rfl) hr
    exact ⟨_, hmove.course.then (goesOn_endCall _ c).course,
      tale_returned rfl rfl rfl (by simp [Deed.way?])⟩

/-- Startup goes on to its next task, or to its end. -/
theorem turns_goOn {es : List Entry}
    (hc : ⟨c, .before es⟩ ∈ ((s.lockLifecycle c).setPhase c (.before es)).calls) (p : Bool) :
    Turns none c ((s.lockLifecycle c).setPhase c (.before es)) (s.goOn c es p) := by
  cases es with
  | nil => exact (turns_conclude hc p).ite (.stays _)
  | cons next rest => exact (turns_prepare hc).ite (.stays _)

theorem turns_goOn_prepared (current : Entry) {es : List Entry}
    (hc : ⟨c, .preparing current es⟩ ∈ s.calls) (p : Bool) : Turns none c s (s.goOn c es p) := by
  have hgo := goesOn_lockLifecycle s c
  have hshift := Move.shifts (s := s.lockLifecycle c) hc (.goOn current es)
  exact .after (hgo.course.after hshift.course) (turns_goOn (mem_setPhase_self hc) p)

theorem turns_openUp (hc : ⟨c, .opening⟩ ∈ s.calls) (p : Bool) :
    Turns none c s (s.openUp c p) := by
  unfold openUp
  split
  · rename_i hl
    have hgo := (goesOn_leaveLifecycle { s with lifecycle := .starting } c).then
      (goesOn_lockLifecycle _ c)
    have hset := hgo.setPhase (c := c) (.before s.registry.schedule)
    refine .after ((Move.opens hc hl).course.then hset.course) (turns_goOn ?_ p)
    rw [hset.calls]
    exact mem_setPhase_self hc
  · exact turns_finish (.stays s) c _
  · exact turns_finish (.stays s) c _
  · exact turns_finish (.stays s) c _
  · exact turns_finish (.stays s) c _

theorem turns_poll (s : TaskSet κ ξ) (c : CallId) (p : Bool) :
    Turns ((s.call? c).bind (·.phase.late?)) c s (s.poll c p) := by
  unfold poll
  cases h : s.call? c with
  | none => exact turns_wait (.stays s)
  | some x =>
    have hc := mem_of_call? h
    simp only [Option.bind_some]
    cases hp : x.phase with
    | admitting r => exact (turns_consider (hp ▸ hc)).ite (.stays s)
    | initializing r => exact turns_wait (.stays s)
    | readmitting r => exact (turns_reconsider (hp ▸ hc)).ite (.stays s)
    | queued =>
      have hc' : ⟨c, .queued⟩ ∈ s.calls := hp ▸ hc
      have hopen : Course s none ((s.setPhase c .opening).lockLifecycle c) :=
        (Move.shifts hc' .unqueue).course.then (goesOn_lockLifecycle _ c).course
      refine Turns.ite (.after hopen (Turns.ite (turns_openUp ?_ p) (.stays _))) (.stays s)
      exact mem_setPhase_self hc'
    | opening => exact (turns_openUp (hp ▸ hc) p).ite (.stays s)
    | checking next rest => exact (turns_prepare (hp ▸ hc)).ite (.stays s)
    | preparing current rest => exact turns_wait (.stays s)
    | aborting current source => exact (turns_giveUp (hp ▸ hc)).ite (.stays s)
    | concluding => exact (turns_conclude (hp ▸ hc) p).ite (.stays s)
    | demolishing => exact (turns_demolish (hp ▸ hc)).ite (.stays s)
    | draining => exact (turns_finish_ok (.stays s) c).ite (.stays s)

/-- Nothing but the lock is between the arrival of a call and its first turn. -/
theorem turns_begin (s : TaskSet κ ξ) (c : CallId) (request : Request κ ξ) (p : Bool)
    (hnew : (s.call? c).isSome = false) :
    Turns none c (s.addCall c (request.phase c)) (s.begin c request p) := by
  have hlate : ∀ (s' : TaskSet κ ξ), s'.calls = (s.addCall c (request.phase c)).calls →
      GoesOn [] (s.addCall c (request.phase c)) s' →
      Turns none c (s.addCall c (request.phase c)) (s'.poll c p) := by
    intro s' hcalls hgo
    have hcall : s'.call? c = some ⟨c, request.phase c⟩ := by
      rw [call?, hcalls]
      exact call?_of_mem hnew _
    have hpoll := turns_poll s' c p
    rw [hcall] at hpoll
    have hnone : (request.phase c).late? = none := by cases request <;> rfl
    rw [Option.bind_some, hnone] at hpoll
    exact .after hgo.course hpoll
  cases request with
  | register task args options order extra => exact hlate _ rfl (goesOn_lockLifecycle _ c)
  | init => exact hlate _ rfl (goesOn_locks _ _ _)
  | destroy => exact hlate _ rfl (goesOn_lockLifecycle _ c)

/-- A call goes on after the `init` that it waited for. -/
theorem turns_poll_setPhase {p q : CallPhase κ ξ} (hc : ⟨c, p⟩ ∈ s.calls) (hp : p.Shifts q)
    (b : Bool) : Turns q.late? c s (((s.setPhase c q).lockLifecycle c).poll c b) := by
  have hcall : ((s.setPhase c q).lockLifecycle c).call? c = some ⟨c, q⟩ := call?_setPhase hc q
  have hpoll := turns_poll ((s.setPhase c q).lockLifecycle c) c b
  rw [hcall, Option.bind_some] at hpoll
  exact .after ((Move.shifts hc hp).course.then (goesOn_lockLifecycle _ c).course) hpoll

theorem turns_initialized (s : TaskSet κ ξ) (c : CallId) (result : Except Fault Unit) (p : Bool) :
    Turns ((SetEvent.initialized (κ := κ) (ξ := ξ) c result p).resumes?.bind fun c =>
      (s.call? c).bind (·.phase.late?)) c s (s.initialized c result p) := by
  unfold initialized
  cases h : s.call? c with
  | none => exact turns_wait (.stays s)
  | some x =>
    have hc := mem_of_call? h
    cases hp : x.phase with
    | initializing r =>
      rw [hp] at hc
      simp only [hp]
      cases result with
      | error source => exact turns_finish (.stays s) c _
      | ok _ =>
        simp only [SetEvent.resumes?, Option.bind_some, h, hp]
        exact turns_poll_setPhase hc (.comeBack r) p
    | preparing current rest =>
      rw [hp] at hc
      simp only [hp]
      cases result with
      | error source =>
        have hrecord := goesOn_record s .error "Task failed to initialize. Aborting startup."
          [("task", .text current.task.name), ("error", .text source.text)]
        have hc' := hrecord.calls.symm ▸ hc
        exact .after hrecord.course (turns_poll_setPhase hc' (.abort current rest source) p)
      | ok _ =>
        simp only [SetEvent.resumes?, Option.bind_some, h, hp]
        refine .after (Move.marks s current.task.id).course (turns_goOn_prepared current ?_ p)
        exact hc
    | _ =>
      simp only [hp]
      exact turns_wait (.stays s)

end TaskSet

end Overseer
