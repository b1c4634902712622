import Overseer.Proofs.Supervision.Progress

/-!
# The moves of a set

`Move s d t` lists the ways in which a set can come from `s` to `t` in one step, and `Deed` names
what such a step does to a task, if it does anything. An event of the set is a `Course` : moves
that do nothing to a task, and among them at most one that does a deed.

The moves follow the code: a call goes on to its next phase (`CallPhase.Shifts`), startup takes
its snapshot (`Move.opens`), a registration comes in (`Move.enrolls`) or goes (`Move.removes`,
`Move.displaces`, `Move.demolishes`, `Move.drops`). What a loop that fails takes out of the
registry is found by its task. `Move.displaces` is the case in which that is the registration
of another stay.
-/

namespace Overseer

variable {κ ξ : Type}

namespace CallPhase

/-- Startup between its first look at the set and its last. -/
def isStartup : CallPhase κ ξ → Bool
  | .checking _ _ => true
  | .preparing _ _ => true
  | .aborting _ _ => true
  | .concluding => true
  | _ => false

/-- What startup still has to initialize. -/
def due : CallPhase κ ξ → List Entry
  | .checking next rest => next :: rest
  | .preparing _ rest => rest
  | _ => []

/-- A registration whose task is initialized before it comes in. -/
def isLate : CallPhase κ ξ → Bool
  | .initializing _ => true
  | .readmitting _ => true
  | _ => false

/-- Startup before it goes on to these entries. -/
def before : List Entry → CallPhase κ ξ
  | [] => .concluding
  | next :: rest => .checking next rest

@[simp] theorem registration?_before (es : List Entry) :
    (before es : CallPhase κ ξ).registration? = none := by cases es <;> rfl

@[simp] theorem due_before (es : List Entry) : (before es : CallPhase κ ξ).due = es := by
  cases es <;> rfl

@[simp] theorem isLate_before (es : List Entry) :
    (before es : CallPhase κ ξ).isLate = false := by cases es <;> rfl

theorem before_ne_admitting (es : List Entry) (r : Registration κ ξ) :
    before es ≠ .admitting r := by
  cases es <;> simp [before]

/-- How a call goes on when that changes nothing but its phase. -/
inductive Shifts : CallPhase κ ξ → CallPhase κ ξ → Prop
  | unqueue : Shifts .queued .opening
  | comeBack (r : Registration κ ξ) :
      Shifts (.initializing r) (.readmitting { r with state := .initialized })
  | goOn (current : Entry) (rest : List Entry) : Shifts (.preparing current rest) (before rest)
  | abort (current : Entry) (rest : List Entry) (source : Fault) :
      Shifts (.preparing current rest) (.aborting current source)
  | drain : Shifts .demolishing .draining

theorem Shifts.ne_admitting {p q : CallPhase κ ξ} (h : p.Shifts q) (r : Registration κ ξ) :
    q ≠ .admitting r := by
  cases h with
  | goOn current rest => exact before_ne_admitting rest r
  | _ => simp

end CallPhase

/-- How a stay ends. -/
inductive Way where
  | unregistered
  /-- Its own loop has failed. -/
  | failed
  | destroyed
  | dropped
  deriving DecidableEq

/-- What is done to a task. -/
inductive Deed where
  /-- Its `init` begins, on behalf of a ticket. -/
  | init (k : CallId)
  | enroll (k : CallId)
  /-- A late registration is refused. -/
  | refuse (task : TaskRef)
  | leave (way : Way) (xs : List Stay)
  /-- The loop of another stay has failed. -/
  | displace (x : Stay)

namespace Deed

def initialized? : Deed → Option CallId
  | .init k => some k
  | _ => none

def refused? : Deed → Option TaskRef
  | .refuse task => some task
  | _ => none

def way? : Deed → Option Way
  | .leave way _ => some way
  | _ => none

def displaced? : Deed → Option CallId
  | .displace x => some x.1
  | _ => none

/-- The stays that end. -/
def left : Deed → List Stay
  | .leave _ xs => xs
  | .displace x => [x]
  | _ => []

end Deed

namespace TaskSet

/-- One step of a set. -/
inductive Move : TaskSet κ ξ → Option Deed → TaskSet κ ξ → Prop
  | goesOn {s t : TaskSet κ ξ} : GoesOn [] s t → Move s none t
  | shifts {s : TaskSet κ ξ} {c : CallId} {p q : CallPhase κ ξ} : ⟨c, p⟩ ∈ s.calls → p.Shifts q →
      Move s none (s.setPhase c q)
  | opens {s : TaskSet κ ξ} {c : CallId} : ⟨c, .opening⟩ ∈ s.calls → s.lifecycle = .pending →
      Move s none ({ s with lifecycle := .starting }.setPhase c (.before s.registry.schedule))
  | marks (s : TaskSet κ ξ) (id : TaskId) :
      Move s none { s with
        registry := s.registry.modify id fun r => { r with state := .initialized } }
  | finishes (s : TaskSet κ ξ) (c : CallId) : Move s none (s.without c)
  | starts {s : TaskSet κ ξ} {c : CallId} (p : Bool) : ⟨c, .concluding⟩ ∈ s.calls →
      s.lifecycle ≠ .terminated →
      Move s none ((s.registry.tasks.map (·.id)).foldl startLoop
        ({ s with lifecycle := .started, isRooted := true, rootCancelled := p }.without c))
  | givesUp {s : TaskSet κ ξ} {c : CallId} {current : Entry} {source : Fault} :
      ⟨c, .aborting current source⟩ ∈ s.calls → s.lifecycle ≠ .terminated →
      Move s none ({ s with lifecycle := .aborted }.without c)
  | comesLate {s : TaskSet κ ξ} {c : CallId} {r : Registration κ ξ} :
      ⟨c, .admitting r⟩ ∈ s.calls → s.isUnderway = true →
      Move s (some (.init r.ticket)) (s.setPhase c (.initializing r))
  | prepares {s : TaskSet κ ξ} {c : CallId} {next : Entry} {rest : List Entry} :
      ⟨c, .checking next rest⟩ ∈ s.calls → s.lifecycle ≠ .terminated →
      Move s (some (.init next.ticket)) (s.setPhase c (.preparing next rest))
  | enrolls {s : TaskSet κ ξ} {c : CallId} {p : CallPhase κ ξ} {r : Registration κ ξ} :
      ⟨c, p⟩ ∈ s.calls → p = .admitting r ∨ p = .readmitting r → s.refusal? r = none →
      Move s (some (.enroll r.ticket)) ((s.enroll r).without c)
  | refuses {s t : TaskSet κ ξ} {c : CallId} {r : Registration κ ξ} :
      ⟨c, .readmitting r⟩ ∈ s.calls → GoesOn [r.task] (s.without c) t →
      Move s (some (.refuse r.task)) t
  | removes {s t : TaskSet κ ξ} {r : Registration κ ξ} (way : Way) (id : TaskId) :
      s.registry.lookup? id = some r → way = .unregistered ∨ s.loops ≠ [] →
      GoesOn [r.task] { s with registry := s.registry.remove id } t → t.IsHalted r.loop →
      Move s (some (.leave way [r.stay])) t
  | displaces {s t : TaskSet κ ξ} {r : Registration κ ξ} (id : TaskId) :
      s.registry.lookup? id = some r → s.loops ≠ [] →
      GoesOn [r.task] { s with registry := s.registry.remove id } t →
      Move s (some (.displace r.stay)) t
  | demolishes {s t : TaskSet κ ξ} :
      GoesOn s.registry.tasks { s with lifecycle := .terminated, registry := [] } t →
      (∀ r ∈ s.registry, t.IsHalted r.loop) → Move s (some (.leave .destroyed s.stays)) t
  | drops {s t : TaskSet κ ξ} : s.calls = [] →
      GoesOn s.registry.tasks { s with registry := [], dropped := true } t →
      (∀ r ∈ s.registry, t.IsHalted r.loop) → Move s (some (.leave .dropped s.stays)) t

/-- Moves one after the other, of which at most one does a deed. -/
inductive Course : TaskSet κ ξ → Option Deed → TaskSet κ ξ → Prop
  | stays (s : TaskSet κ ξ) : Course s none s
  | quietly {s t u : TaskSet κ ξ} {d : Option Deed} : Move s none t → Course t d u → Course s d u
  | does {s t u : TaskSet κ ξ} {d : Deed} : Move s (some d) t → Course t none u →
      Course s (some d) u

variable {s t u : TaskSet κ ξ} {d : Option Deed}

theorem Move.course (h : Move s d t) : Course s d t := by
  cases d with
  | none => exact .quietly h (.stays t)
  | some d => exact .does h (.stays t)

/-- Nothing is done to a task after a course. -/
theorem Course.then (h : Course s d t) : Course t none u → Course s d u := by
  induction h with
  | stays s => exact fun h => h
  | quietly hm _ ih => exact fun h => .quietly hm (ih h)
  | does hm _ ih => exact fun h => .does hm (ih h)

theorem Course.after (h : Course s none t) (h' : Course t d u) : Course s d u := by
  generalize hd : (none : Option Deed) = e at h
  induction h with
  | stays s => exact h'
  | quietly hm _ ih => exact .quietly hm (ih h' hd)
  | does _ _ _ => contradiction

theorem GoesOn.course (h : GoesOn [] s t) : Course s none t := (Move.goesOn h).course

/-- What every move keeps, and every deed keeps, a course keeps. -/
theorem Course.keeps {P : TaskSet κ ξ → Prop} (h : Course s d t)
    (hP : ∀ {s t : TaskSet κ ξ} {d : Option Deed}, Move s d t → P s → P t) : P s → P t := by
  induction h with
  | stays s => exact fun hs => hs
  | quietly hm _ ih => exact fun hs => ih (hP hm hs)
  | does hm _ ih => exact fun hs => ih (hP hm hs)

end TaskSet

end Overseer
