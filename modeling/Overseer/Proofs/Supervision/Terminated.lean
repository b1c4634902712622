import Overseer.Proofs.Supervision.Desk
import Overseer.Proofs.Supervision.Initialization

/-!
# Terminated sets

In a terminated set a call that gets the lifecycle lock can only end, and what it returns is read
off its phase (`CallPhase.verdict`) : a destroy call succeeds, a startup that has failed says so,
and everybody else hears that the set is terminated. No loop changes meanwhile (`Answers`). A
call whose `init` was in flight may also return the error of that `init` (`CallPhase.Ends`).

A terminated set in which every loop has ended stays so (`quiet_of_perform`), and that is how a
destroy call leaves its set (`quiet_of_returned`).
-/

namespace Overseer

variable {κ ξ : Type}

/-! ## What a call is for -/

/-- What a call is for. -/
inductive CallKind where
  | register | init | destroy
  deriving DecidableEq, Repr

def Request.kind : Request κ ξ → CallKind
  | .register _ _ _ _ _ => .register
  | .init => .init
  | .destroy => .destroy

namespace CallPhase

def kind : CallPhase κ ξ → CallKind
  | .admitting _ => .register
  | .initializing _ => .register
  | .readmitting _ => .register
  | .demolishing => .destroy
  | .draining => .destroy
  | _ => .init

/-- Has the call not been let in by a set that was not terminated? -/
def isNew (p : CallPhase κ ξ) : Bool := !p.isLate && !p.isStartup

/-- What the call returns when it finds the set terminated. -/
def verdict : CallPhase κ ξ → Except SupervisionError Unit
  | .aborting current source => .error (.initFailed current.task.name source)
  | .demolishing => .ok ()
  | .draining => .ok ()
  | _ => .error .terminated

/-- The call may end like this in a terminated set. -/
def Ends (p : CallPhase κ ξ) (result : Except SupervisionError Unit) : Prop :=
  result = p.verdict ∨
    p.isNew = false ∧ ∃ task source, result = .error (.initFailed task source)

theorem Ends.refused {p : CallPhase κ ξ} {result : Except SupervisionError Unit}
    (h : p.Ends result) (hk : p.kind ≠ .destroy) : result = .error .terminated ∨
      ∃ task source, result = .error (.initFailed task source) := by
  rcases h with rfl | ⟨-, h⟩
  · cases p with
    | aborting current source => exact .inr ⟨_, _, rfl⟩
    | demolishing => exact absurd rfl hk
    | draining => exact absurd rfl hk
    | _ => exact .inl rfl
  · exact .inr h

/-- A call that comes too late is told so. -/
theorem Ends.terminated {p : CallPhase κ ξ} {result : Except SupervisionError Unit}
    (h : p.Ends result) (hk : p.kind ≠ .destroy) (hn : p.isNew = true) :
    result = .error .terminated := by
  rcases h with rfl | ⟨hno, -⟩
  · cases p with
    | aborting current source => simp [isNew, isStartup] at hn
    | demolishing => exact absurd rfl hk
    | draining => exact absurd rfl hk
    | _ => rfl
  · simp [hn] at hno

theorem kind_before (es : List Entry) : (before es : CallPhase κ ξ).kind = .init := by
  cases es <;> rfl

theorem Shifts.kind {p q : CallPhase κ ξ} (h : p.Shifts q) : p.kind = q.kind := by
  cases h with
  | goOn current rest => exact (kind_before rest).symm
  | _ => rfl

theorem Shifts.isNew {p q : CallPhase κ ξ} (h : p.Shifts q) (hp : p.isNew = true) :
    q.isNew = true := by
  cases h with
  | unqueue => rfl
  | drain => rfl
  | _ => simp [CallPhase.isNew, isLate, isStartup] at hp

end CallPhase

theorem Request.kind_phase (request : Request κ ξ) (c : CallId) :
    (request.phase c).kind = request.kind := by
  cases request <;> rfl

theorem Request.isNew_phase (request : Request κ ξ) (c : CallId) :
    (request.phase c).isNew = true := by
  cases request <;> rfl

/-- The call `y` is the call `x` at a later time. If `closed` holds, it has not been let in
meanwhile. -/
structure Call.Continues (y : Call κ ξ) (closed : Prop) (x : Call κ ξ) : Prop where
  id : y.id = x.id
  kind : y.phase.kind = x.phase.kind
  isNew : closed → x.phase.isNew = true → y.phase.isNew = true

theorem Call.Continues.refl (closed : Prop) (x : Call κ ξ) : x.Continues closed x :=
  ⟨rfl, rfl, fun _ h => h⟩

namespace TaskSet

variable {s t u : TaskSet κ ξ} {c : CallId} {d : Option Deed} {h : List (SetOccurrence κ ξ)}
  {e : SetEvent κ ξ}

theorem continues_setPhase {p q : CallPhase κ ξ} {closed : Prop} (hc : ⟨c, p⟩ ∈ s.calls)
    (hk : q.kind = p.kind) (hn : closed → p.isNew = true → q.isNew = true) :
    ∀ y ∈ (s.setPhase c q).calls, ∃ x ∈ s.calls, y.Continues closed x := by
  intro y hy
  rcases mem_setPhase hy with rfl | ⟨hy, -⟩
  · exact ⟨_, hc, rfl, hk, hn⟩
  · exact ⟨y, hy, .refl closed y⟩

/-- No move makes a call, and none lets one into a terminated set. -/
theorem Move.continues (h : Move s d t) :
    ∀ y ∈ t.calls, ∃ x ∈ s.calls, y.Continues (s.lifecycle = .terminated) x := by
  have hfewer : (∀ y ∈ t.calls, y ∈ s.calls) →
      ∀ y ∈ t.calls, ∃ x ∈ s.calls, y.Continues (s.lifecycle = .terminated) x :=
    fun hsub y hy => ⟨y, hsub y hy, .refl _ y⟩
  cases h with
  | goesOn h => exact hfewer fun y hy => h.calls ▸ hy
  | shifts hc hp => exact continues_setPhase hc hp.kind.symm fun _ => hp.isNew
  | opens hc hl =>
    exact continues_setPhase (s := { s with lifecycle := .starting }) hc
      (CallPhase.kind_before _) fun hl' => by simp [hl] at hl'
  | marks id => exact hfewer fun y hy => hy
  | finishes c => exact hfewer fun y hy => mem_without hy
  | starts p hc hl =>
    refine hfewer fun y hy => ?_
    rw [(startLoops_same _ _).2.1] at hy
    exact mem_without hy
  | givesUp hc hl => exact hfewer fun y hy => mem_without hy
  | comesLate hc hu =>
    exact continues_setPhase hc rfl fun hl => by simp [isUnderway, hl] at hu
  | prepares hc hl => exact continues_setPhase hc rfl fun hl' => absurd hl' hl
  | enrolls hc hp hr =>
    refine hfewer fun y hy => ?_
    rw [(enroll_same _ _ _).2.1] at hy
    exact mem_without hy
  | refuses hc h => exact hfewer fun y hy => mem_without (h.calls ▸ hy)
  | removes way id hr hw h _ => exact hfewer fun y hy => h.calls ▸ hy
  | displaces id hr hl h => exact hfewer fun y hy => h.calls ▸ hy
  | demolishes h _ => exact hfewer fun y hy => h.calls ▸ hy
  | drops hc h _ => exact hfewer fun y hy => h.calls ▸ hy

theorem Course.continues (h : Course s d t) :
    ∀ y ∈ t.calls, ∃ x ∈ s.calls, y.Continues (s.lifecycle = .terminated) x := by
  have hstep : ∀ {s t u : TaskSet κ ξ} {d : Option Deed}, Move s d t →
      (∀ z ∈ u.calls, ∃ y ∈ t.calls, z.Continues (t.lifecycle = .terminated) y) →
        ∀ z ∈ u.calls, ∃ x ∈ s.calls, z.Continues (s.lifecycle = .terminated) x := by
    intro s t u d hm hrest z hz
    obtain ⟨y, hy, hzy⟩ := hrest z hz
    obtain ⟨x, hx, hyx⟩ := hm.continues y hy
    exact ⟨x, hx, hzy.id.trans hyx.id, hzy.kind.trans hyx.kind,
      fun hl hn => hzy.isNew (hm.terminated hl) (hyx.isNew hl hn)⟩
  induction h with
  | stays s => exact fun y hy => ⟨y, hy, .refl _ y⟩
  | quietly hm _ ih => exact hstep hm ih
  | does hm _ ih => exact hstep hm ih

/-- A call in a set that an event has entered was there before, or the event begins it. -/
theorem mem_entered {x : Call κ ξ} (hx : x ∈ (s.entered e).calls) : x ∈ s.calls ∨
    ∃ c request b, e = .begin c request b ∧ x = ⟨c, request.phase c⟩ := by
  cases e with
  | begin c request b =>
    rcases List.mem_append.1 hx with hx | hx
    · exact .inl hx
    · exact .inr ⟨c, request, b, rfl, List.mem_singleton.1 hx⟩
  | _ => exact .inl hx

/-- A call has begun, with a request of that kind. -/
def Began (h : List (SetOccurrence κ ξ)) (c : CallId) (k : CallKind) : Prop :=
  ∃ o ∈ h, ∃ request b, o.event = .begin c request b ∧ request.kind = k

variable {k k' : CallKind}

theorem Began.append (hb : Began h c k) (h' : List (SetOccurrence κ ξ)) : Began (h ++ h') c k := by
  obtain ⟨o, ho, hbegin⟩ := hb
  exact ⟨o, List.mem_append_left _ ho, hbegin⟩

theorem Began.mem (hb : Began h c k) : c ∈ begun h := by
  obtain ⟨o, ho, request, b, hevent, -⟩ := hb
  exact List.mem_filterMap.2 ⟨o, ho, by rw [hevent]; rfl⟩

theorem Began.of_append (hb : Began (h ++ [⟨s, e⟩]) c k) :
    Began h c k ∨ ∃ request b, e = .begin c request b ∧ request.kind = k := by
  obtain ⟨o, ho, request, b, hevent, hk⟩ := hb
  rcases List.mem_append.1 ho with ho | ho
  · exact .inl ⟨o, ho, request, b, hevent, hk⟩
  · obtain rfl := List.mem_singleton.1 ho
    exact .inr ⟨request, b, hevent, hk⟩

/-- A call begins once. -/
theorem Began.unique (hrun : (setSystem κ ξ).Run h s) (hb : Began h c k) (hb' : Began h c k') :
    k = k' := by
  induction hrun with
  | start _ =>
    obtain ⟨o, ho, -⟩ := hb
    exact absurd ho List.not_mem_nil
  | @next h s e hrun hall ih =>
    have hfresh : ∀ {k request b}, Began h c k → e ≠ .begin c request b := by
      rintro k request b hold rfl
      have hall : allows h s (.begin c request b) = true := hall
      exact (allows_begin.1 hall).2 hold.mem
    rcases hb.of_append with hb | ⟨request, b, he, hk⟩
    · rcases hb'.of_append with hb' | ⟨request', b', he', -⟩
      · exact ih hb hb'
      · exact absurd he' (hfresh hb)
    · rcases hb'.of_append with hb' | ⟨request', b', he', hk'⟩
      · exact absurd he (hfresh hb')
      · obtain ⟨-, rfl, -⟩ := SetEvent.begin.inj (he.symm.trans he')
        exact hk.symm.trans hk'

theorem kind_entered (hkinds : ∀ x ∈ s.calls, Began h x.id x.phase.kind) :
    ∀ x ∈ (s.entered e).calls, Began (h ++ [⟨s, e⟩]) x.id x.phase.kind := by
  intro x hx
  rcases mem_entered hx with hx | ⟨c, request, b, rfl, rfl⟩
  · exact (hkinds x hx).append _
  · exact ⟨⟨s, .begin c request b⟩, by simp, request, b, rfl, (request.kind_phase c).symm⟩

/-- The phase of a call tells what it is for. -/
theorem kind_of_run (hrun : (setSystem κ ξ).Run h s) :
    ∀ x ∈ s.calls, Began h x.id x.phase.kind := by
  induction hrun with
  | start hstart =>
    obtain ⟨name, pool, rfl⟩ := hstart
    exact fun x hx => absurd hx List.not_mem_nil
  | @next h s e hrun hall ih =>
    intro y hy
    obtain ⟨d, hcourse, -⟩ := course_of_perform (sound_of_run hrun) hall
    obtain ⟨x, hx, hyx⟩ := hcourse.continues y hy
    rw [hyx.id, hyx.kind]
    exact kind_entered ih x hx

/-! ## Turns of calls -/

@[simp] theorem loops_wakeHolder (s : TaskSet κ ξ) (c : Option CallId) :
    (s.wakeHolder c).loops = s.loops := by
  cases c <;> rfl

@[simp] theorem loops_endCall (s : TaskSet κ ξ) (c : CallId) : (s.endCall c).loops = s.loops :=
  (loops_wakeHolder _ _).trans (loops_wakeHolder _ _)

@[simp] theorem loops_forgetRoot (s : TaskSet κ ξ) : s.forgetRoot.loops = s.loops := by
  unfold forgetRoot
  split <;> rfl

/-- No loop changes, and the call waits, or ends as a terminated set has it. -/
structure Answers (p : CallPhase κ ξ) (s : TaskSet κ ξ) (r : TaskSet κ ξ × CallTurn) : Prop where
  loops : r.1.loops = s.loops
  turn : r.2 = .wait ∨ r.2 = .returned p.verdict

theorem consider_terminated (hl : s.lifecycle = .terminated) (c : CallId) (r : Registration κ ξ) :
    s.consider c r = s.finish c (.error .terminated) := by
  simp [consider, refusal?, hl]

theorem reconsider_terminated (hl : s.lifecycle = .terminated) (c : CallId)
    (r : Registration κ ξ) :
    s.reconsider c r = (s.tearDown r .stopped).finish c (.error .terminated) := by
  simp [reconsider, refusal?, hl]

theorem prepare_terminated (hl : s.lifecycle = .terminated) (c : CallId) (next : Entry)
    (rest : List Entry) : s.prepare c next rest = s.finish c (.error .terminated) := by
  simp [prepare, hl]

theorem conclude_terminated (hl : s.lifecycle = .terminated) (c : CallId) (b : Bool) :
    s.conclude c b = s.finish c (.error .terminated) := by
  simp [conclude, hl]

theorem openUp_terminated (hl : s.lifecycle = .terminated) (c : CallId) (b : Bool) :
    s.openUp c b = s.finish c (.error .terminated) := by
  simp [openUp, hl]

theorem giveUp_terminated (hl : s.lifecycle = .terminated) (c : CallId) (current : Entry)
    (source : Fault) : s.giveUp c current source =
      s.finish c (.error (.initFailed current.task.name source)) := by
  simp [giveUp, hl]

/-- A set that is destroyed a second time only loses its root token. -/
theorem cleared_terminated (hl : s.lifecycle = .terminated) (hr : s.registry = []) :
    s.cleared = s.forgetRoot := by
  obtain ⟨name, pool, lifecycle, isRooted, rootCancelled, registry, lifecycleLock, startupLock,
    calls, loops, nextLoop, dropped, notices⟩ := s
  obtain rfl : lifecycle = .terminated := hl
  obtain rfl : registry = [] := hr
  rfl

theorem demolish_terminated (hl : s.lifecycle = .terminated) (hr : s.registry = [])
    (c : CallId) : s.demolish c = if s.isQuiet then s.forgetRoot.finish c (.ok ())
      else (s.forgetRoot.setPhase c .draining, .wait) := by
  have hquiet : s.forgetRoot.isQuiet = s.isQuiet := by rw [isQuiet, loops_forgetRoot, isQuiet]
  rw [demolish_eq, cleared_terminated hl hr, hquiet]

variable {p q : CallPhase κ ξ}

theorem answers_wait (p : CallPhase κ ξ) (s : TaskSet κ ξ) : Answers p s (s, .wait) :=
  ⟨rfl, .inl rfl⟩

theorem answers_of_finish {r : TaskSet κ ξ × CallTurn} {result : Except SupervisionError Unit}
    (heq : r = t.finish c result) (hresult : result = p.verdict) (hloops : t.loops = s.loops) :
    Answers p s r := by
  subst heq hresult
  exact ⟨(loops_endCall t c).trans hloops, .inr rfl⟩

theorem Answers.ite {b : Bool} {r : TaskSet κ ξ × CallTurn} (h : Answers p s r)
    (ht : t.loops = s.loops) : Answers p s (if b then r else (t, .wait)) := by
  split
  · exact h
  · exact ⟨ht, .inl rfl⟩

theorem answers_demolish (hl : s.lifecycle = .terminated) (hr : s.registry = []) (c : CallId) :
    Answers .demolishing s (s.demolish c) := by
  rw [demolish_terminated hl hr]
  exact (answers_of_finish rfl rfl (loops_forgetRoot s)).ite (loops_forgetRoot s)

/-- The turn of a call in a terminated set. -/
theorem answers_poll (hl : s.lifecycle = .terminated) (hr : s.registry = []) {x : Call κ ξ}
    (hx : s.call? c = some x) (b : Bool) : Answers x.phase s (s.poll c b) := by
  unfold poll
  simp only [hx]
  cases hp : x.phase with
  | admitting r => exact (answers_of_finish (consider_terminated hl c r) rfl rfl).ite rfl
  | initializing r => exact answers_wait _ s
  | readmitting r =>
    have hlate : Answers (.readmitting r) s (s.reconsider c r) :=
      answers_of_finish (reconsider_terminated hl c r) rfl rfl
    exact hlate.ite rfl
  | queued =>
    have hopen : Answers .queued s (((s.setPhase c .opening).lockLifecycle c).openUp c b) :=
      answers_of_finish (openUp_terminated (s := (s.setPhase c .opening).lockLifecycle c) hl c b)
        rfl rfl
    have hloops : ((s.setPhase c .opening).lockLifecycle c).loops = s.loops := rfl
    exact (hopen.ite hloops).ite rfl
  | opening => exact (answers_of_finish (openUp_terminated hl c b) rfl rfl).ite rfl
  | checking next rest =>
    exact (answers_of_finish (prepare_terminated hl c next rest) rfl rfl).ite rfl
  | preparing current rest => exact answers_wait _ s
  | aborting current source =>
    exact (answers_of_finish (giveUp_terminated hl c current source) rfl rfl).ite rfl
  | concluding => exact (answers_of_finish (conclude_terminated hl c b) rfl rfl).ite rfl
  | demolishing => exact (answers_demolish hl hr c).ite rfl
  | draining => exact (answers_of_finish (t := s) rfl rfl rfl).ite rfl

theorem answers_goOn (hl : s.lifecycle = .terminated) (c : CallId) (es : List Entry) (b : Bool) :
    Answers (.before es) s (s.goOn c es b) := by
  cases es with
  | nil =>
    have hend : Answers .concluding s (((s.lockLifecycle c).setPhase c .concluding).conclude c b) :=
      answers_of_finish
        (conclude_terminated (s := (s.lockLifecycle c).setPhase c .concluding) hl c b) rfl rfl
    have hloops : ((s.lockLifecycle c).setPhase c .concluding).loops = s.loops := rfl
    exact hend.ite hloops
  | cons next rest =>
    have hend : Answers (.checking next rest) s
        (((s.lockLifecycle c).setPhase c (.checking next rest)).prepare c next rest) :=
      answers_of_finish
        (prepare_terminated (s := (s.lockLifecycle c).setPhase c (.checking next rest)) hl c next
          rest) rfl rfl
    have hloops : ((s.lockLifecycle c).setPhase c (.checking next rest)).loops = s.loops := rfl
    exact hend.ite hloops

/-- No loop changes, and if the call returns, a terminated set has it end so. -/
structure Closes (p : CallPhase κ ξ) (s : TaskSet κ ξ) (r : TaskSet κ ξ × CallTurn) : Prop where
  loops : r.1.loops = s.loops
  ends : ∀ result, r.2 = .returned result → p.Ends result

theorem Answers.closes {r : TaskSet κ ξ × CallTurn} (h : Answers q t r) (ht : t.loops = s.loops)
    (hq : p.Ends q.verdict) : Closes p s r := by
  refine ⟨h.loops.trans ht, fun result hret => ?_⟩
  rcases h.turn with hwait | hreturned
  · have hturn := hwait.symm.trans hret
    contradiction
  · obtain rfl := CallTurn.returned.inj (hreturned.symm.trans hret)
    exact hq

theorem closes_wait (p : CallPhase κ ξ) (s : TaskSet κ ξ) : Closes p s (s, .wait) :=
  (answers_wait p s).closes rfl (.inl rfl)

theorem closes_poll (hl : s.lifecycle = .terminated) (hr : s.registry = []) {x : Call κ ξ}
    (hx : s.call? c = some x) (b : Bool) : Closes x.phase s (s.poll c b) :=
  (answers_poll hl hr hx b).closes rfl (.inl rfl)

/-- A new call gets its first turn. -/
theorem closes_begin (hl : s.lifecycle = .terminated) (hr : s.registry = [])
    (hnew : (s.call? c).isSome = false) (request : Request κ ξ) (b : Bool) :
    Closes (request.phase c) s (s.begin c request b) := by
  have hcall := call?_of_mem hnew (request.phase c)
  cases request with
  | register task args options order extra =>
    exact (answers_poll (s := (s.addCall c _).lockLifecycle c) hl hr hcall b).closes rfl (.inl rfl)
  | init =>
    exact (answers_poll (s := { s.addCall c .queued with
      startupLock := s.startupLock.acquire c }) hl hr hcall b).closes rfl (.inl rfl)
  | destroy =>
    exact (answers_poll (s := (s.addCall c .demolishing).lockLifecycle c) hl hr hcall b).closes rfl
      (.inl rfl)

/-- The `init` that a call waited for comes back to a terminated set. -/
theorem closes_initialized (hl : s.lifecycle = .terminated) (hr : s.registry = []) {x : Call κ ξ}
    (hx : s.call? c = some x) (result : Except Fault Unit) (b : Bool) :
    Closes x.phase s (s.initialized c result b) := by
  have hc := mem_of_call? hx
  have hback : ∀ {t : TaskSet κ ξ} {p q : CallPhase κ ξ}, t.lifecycle = .terminated →
      t.registry = [] → t.loops = s.loops → ⟨c, p⟩ ∈ t.calls → p.Ends q.verdict →
        Closes p s (((t.setPhase c q).lockLifecycle c).poll c b) := by
    intro t p q hl hr hloops hp hends
    have hcall : ((t.setPhase c q).lockLifecycle c).call? c = some ⟨c, q⟩ := call?_setPhase hp q
    exact (answers_poll (s := (t.setPhase c q).lockLifecycle c) hl hr hcall b).closes hloops hends
  -- the error of an `init` that was in flight is the only way to end that is not the verdict
  unfold initialized
  simp only [hx]
  cases hp : x.phase with
  | initializing r =>
    rw [hp] at hc
    cases result with
    | error source =>
      refine ⟨loops_endCall s c, fun result hret => ?_⟩
      obtain rfl := CallTurn.returned.inj hret
      exact .inr ⟨rfl, r.task.name, source, rfl⟩
    | ok _ => exact hback hl hr rfl hc (.inl rfl)
  | preparing current rest =>
    rw [hp] at hc
    cases result with
    | error source =>
      exact hback (t := s.record .error "Task failed to initialize. Aborting startup."
        [("task", .text current.task.name), ("error", .text source.text)]) hl hr rfl hc
        (.inr ⟨rfl, current.task.name, source, rfl⟩)
    | ok _ =>
      refine (answers_goOn (s := { s with registry := s.registry.modify current.task.id fun r =>
        { r with state := .initialized } }) hl c rest b).closes rfl (.inl ?_)
      cases rest <;> rfl
  | _ => exact closes_wait _ s

/-! ## Events -/

/-- An occurrence has the call return. -/
def Returns (o : SetOccurrence κ ξ) (c : CallId) (result : Except SupervisionError Unit) : Prop :=
  o.event.caller? = some c ∧ (o.before.perform o.event).2 = .call (.returned result)

/-- A call that gets its turn in a terminated set changes no loop, and ends as its phase says if it
returns. -/
theorem turn_of_caller (hs : Sound (begun h) s) (hl : s.lifecycle = .terminated)
    (hall : allows h s e = true) (hc : e.caller? = some c) :
    ∃ r : TaskSet κ ξ × CallTurn, s.perform e = (r.1, .call r.2) ∧ r.1.loops = s.loops ∧
      ∀ result, r.2 = .returned result → ∃ p, ⟨c, p⟩ ∈ (s.entered e).calls ∧ p.Ends result := by
  have hr := hs.empty hl
  have hidle : s.entered e = s → ∀ {r : TaskSet κ ξ × CallTurn},
      (s.call? c = none → r = (s, .wait)) → (∀ x, s.call? c = some x → Closes x.phase s r) →
        r.1.loops = s.loops ∧ ∀ result, r.2 = .returned result →
          ∃ p, ⟨c, p⟩ ∈ (s.entered e).calls ∧ p.Ends result := by
    intro hsame r hnone hsome
    rw [hsame]
    cases hx : s.call? c with
    | none => exact hnone hx ▸ ⟨rfl, fun result hret => by contradiction⟩
    | some x =>
      exact ⟨(hsome x hx).loops,
        fun result hret => ⟨x.phase, mem_of_call? hx, (hsome x hx).ends result hret⟩⟩
  cases e with
  | begin d request b =>
    obtain rfl := Option.some.inj hc
    have hcloses := closes_begin hl hr (hs.call?_of_new (allows_begin.1 hall).2) request b
    exact ⟨_, rfl, hcloses.loops, fun result hret =>
      ⟨_, List.mem_append_right _ (List.mem_singleton_self _), hcloses.ends result hret⟩⟩
  | poll d b =>
    obtain rfl := Option.some.inj hc
    exact ⟨_, rfl, hidle rfl (fun hx => by simp [poll, hx]) fun x hx => closes_poll hl hr hx b⟩
  | initialized d result b =>
    obtain rfl := Option.some.inj hc
    exact ⟨_, rfl, hidle rfl (fun hx => by simp [initialized, hx]) fun x hx =>
      closes_initialized hl hr hx result b⟩
  | _ => simp [SetEvent.caller?] at hc

/-- No `init` begins in a terminated set. -/
theorem not_callInit (hs : Sound (begun h) s) (hl : s.lifecycle = .terminated)
    (hall : allows h s e = true) (task : TaskRef) (args : List Argument) :
    (s.perform e).2 ≠ .call (.callInit task args) := by
  intro hanswer
  obtain ⟨d, hcourse, htells⟩ := course_of_perform hs hall
  have hsome := htells.complete task args hanswer
  rw [htells.initialized] at hsome
  cases d with
  | none => simp at hsome
  | some d =>
    cases d with
    | init k =>
      exact (hcourse.inits (hs.entered hall) rfl).2.2 ((lifecycle_entered s e).trans hl)
    | _ => simp [Deed.initialized?] at hsome

/-! ## Quiet sets -/

theorem isQuiet_of_loops (h : t.loops = s.loops) : t.isQuiet = s.isQuiet := by
  rw [isQuiet, h, isQuiet]

theorem ended_of_isQuiet (hq : s.isQuiet = true) {x : Loop} (hx : x ∈ s.loops) :
    x.phase = .ended := by
  simpa using List.all_eq_true.1 hq x hx

/-- A token that is cancelled leaves every loop where it is. -/
theorem isQuiet_cancelLoop (s : TaskSet κ ξ) (l : LoopId) :
    (s.cancelLoop l).isQuiet = s.isQuiet := by
  unfold cancelLoop
  split
  · simp only [isQuiet, setLoop, notify, List.all_map]
    refine List.all_congr rfl fun x => ?_
    dsimp only [Function.comp]
    split <;> rfl
  · rfl

theorem isQuiet_cancelRoot (s : TaskSet κ ξ) : s.cancelRoot.isQuiet = s.isQuiet := by
  have hfold : ∀ (xs : List Loop) (s : TaskSet κ ξ),
      (xs.foldl (fun s x => s.cancelLoop x.id) s).isQuiet = s.isQuiet := by
    intro xs
    induction xs with
    | nil => exact fun s => rfl
    | cons x xs ih => exact fun s => (ih _).trans (isQuiet_cancelLoop s x.id)
  unfold cancelRoot
  split
  · rfl
  · exact hfold _ s

theorem drop_terminated (hl : s.lifecycle = .terminated) (hr : s.registry = []) :
    s.drop = { s with dropped := true }.forgetRoot := by
  obtain ⟨name, pool, lifecycle, isRooted, rootCancelled, registry, lifecycleLock, startupLock,
    calls, loops, nextLoop, dropped, notices⟩ := s
  obtain rfl : lifecycle = .terminated := hl
  obtain rfl : registry = [] := hr
  rfl

/-- Once every loop of a terminated set has ended, no loop goes on and none starts. -/
theorem quiet_of_perform (hs : Sound (begun h) s) (hl : s.lifecycle = .terminated)
    (hq : s.isQuiet = true) (hall : allows h s e = true) :
    (s.perform e).1.isQuiet = true ∧ ∀ task, (s.perform e).2 ≠ .loop (.run task) := by
  have hr := hs.empty hl
  cases hc : e.caller? with
  | some c =>
    obtain ⟨r, hperform, hloops, -⟩ := turn_of_caller hs hl hall hc
    rw [hperform]
    exact ⟨(isQuiet_of_loops hloops).trans hq, by simp⟩
  | none =>
    cases e with
    | abandon c =>
      refine ⟨(isQuiet_of_loops (t := s.abandon c) ?_).trans hq, by simp [perform]⟩
      unfold abandon
      split
      · exact loops_endCall s c
      · rfl
    | unregister task =>
      have hsame : s.unregister task = (s, .error (.notRegistered task.name)) := by
        simp [unregister, hr, Registry.lookup?]
      exact ⟨(isQuiet_of_loops (congrArg (·.1.loops) hsame)).trans hq, by simp [perform]⟩
    | pollLoop l now =>
      have hsame : s.pollLoop l now = (s, .ended) := by
        unfold pollLoop
        cases hx : s.loop? l with
        | none => rfl
        | some x => simp [ended_of_isQuiet hq (loop?_eq_some hx).1]
      simp only [perform, hsame]
      exact ⟨hq, by simp⟩
    | ran l now ending =>
      obtain ⟨x, hx, -, hrunning⟩ := allows_ran.1 hall
      simp [ended_of_isQuiet hq hx] at hrunning
    | reported l poolName result =>
      obtain ⟨x, hx, -, hreporting⟩ := allows_reported.1 hall
      simp [ended_of_isQuiet hq hx] at hreporting
    | killLoop l =>
      have hsame : s.killLoop l = s := by
        unfold killLoop
        cases hx : s.loop? l with
        | none => rfl
        | some x => simp [ended_of_isQuiet hq (loop?_eq_some hx).1]
      simp only [perform, hsame]
      exact ⟨hq, by simp⟩
    | cancelRoot => exact ⟨(isQuiet_cancelRoot s).trans hq, by simp [perform]⟩
    | drop =>
      refine ⟨?_, by simp [perform]⟩
      show s.drop.isQuiet = true
      rw [drop_terminated hl hr]
      exact (isQuiet_of_loops (loops_forgetRoot { s with dropped := true })).trans hq
    | _ => simp [SetEvent.caller?] at hc

/-- A destroy call that returns from its turn leaves a terminated set without loops. -/
theorem quiet_of_poll {x : Call κ ξ} (hx : s.call? c = some x) (hk : x.phase.kind = .destroy)
    (hdrains : x.phase = .draining → s.lifecycle = .terminated) {b : Bool}
    {result : Except SupervisionError Unit} (hret : (s.poll c b).2 = .returned result) :
    (s.poll c b).1.lifecycle = .terminated ∧ (s.poll c b).1.isQuiet = true := by
  unfold poll at hret ⊢
  simp only [hx] at hret ⊢
  cases hp : x.phase with
  | demolishing =>
    simp only [hp] at hret ⊢
    split at hret
    · rename_i hheld
      rw [if_pos hheld, demolish_eq]
      rw [demolish_eq] at hret
      split at hret
      · rename_i hq
        rw [if_pos hq]
        exact ⟨(lifecycle_endCall _ c).trans (lifecycle_cleared s),
          (isQuiet_of_loops (loops_endCall _ c)).trans hq⟩
      · contradiction
    · contradiction
  | draining =>
    simp only [hp] at hret ⊢
    split at hret
    · rename_i hq
      rw [if_pos hq]
      exact ⟨(lifecycle_endCall s c).trans (hdrains hp),
        (isQuiet_of_loops (loops_endCall s c)).trans hq⟩
    · contradiction
  | _ => simp [hp, CallPhase.kind] at hk

/-- A set from which a destroy call has returned is terminated, and every loop has ended. -/
theorem quiet_of_returned (hs : Sound (begun h) s) (ho : Orderly s) (hall : allows h s e = true)
    (hk : ∀ p, ⟨c, p⟩ ∈ (s.entered e).calls → p.kind = .destroy)
    {result : Except SupervisionError Unit} (hret : Returns ⟨s, e⟩ c result) :
    (s.perform e).1.lifecycle = .terminated ∧ (s.perform e).1.isQuiet = true := by
  obtain ⟨hc, hanswer⟩ := hret
  cases e with
  | begin d request b =>
    obtain rfl := Option.some.inj hc
    have hreturned := SetAnswer.call.inj hanswer
    have hkind : request.kind = .destroy := by
      rw [← request.kind_phase d]
      exact hk _ (List.mem_append_right _ (List.mem_singleton_self _))
    cases request with
    | register task args options order extra => simp [Request.kind] at hkind
    | init => simp [Request.kind] at hkind
    | destroy =>
      have hnew := hs.call?_of_new (allows_begin.1 hall).2
      exact quiet_of_poll (s := (s.addCall d .demolishing).lockLifecycle d)
        (call?_of_mem hnew .demolishing) rfl (by simp) hreturned
  | poll d b =>
    obtain rfl := Option.some.inj hc
    have hreturned := SetAnswer.call.inj hanswer
    cases hx : s.call? d with
    | none =>
      have hwait : s.poll d b = (s, .wait) := by simp [poll, hx]
      have hturn := (congrArg Prod.snd hwait).symm.trans hreturned
      contradiction
    | some x =>
      have hmem := mem_of_call? hx
      exact quiet_of_poll hx (hk _ hmem) (fun hp => ho.drains d (hp ▸ hmem)) hreturned
  | initialized d outcome b =>
    obtain rfl := Option.some.inj hc
    have hreturned := SetAnswer.call.inj hanswer
    have hwait : s.initialized d outcome b = (s, .wait) := by
      unfold initialized
      cases hx : s.call? d with
      | none => rfl
      | some x =>
        have hkind : x.phase.kind = .destroy := hk _ (mem_of_call? hx)
        cases hp : x.phase with
        | initializing r => simp [hp, CallPhase.kind] at hkind
        | preparing current rest => simp [hp, CallPhase.kind] at hkind
        | _ => simp only [hp]
    have hturn := (congrArg Prod.snd hwait).symm.trans hreturned
    contradiction
  | _ => simp [SetEvent.caller?] at hc

end TaskSet

end Overseer
