import Overseer.Proofs.History
import Overseer.Supervision.TaskSet

/-!
# What happens to a supervised set

`SetEvent` lists everything that can happen to a supervised set, and `TaskSet.perform` is the
function of the set that stands for it. `setSystem κ ξ` starts with any new set. Its outside
promises that a call has a number of its own and is made through a handle, that a run or a
hand-over of an error ends only if there is one, and that the last handle does not go while a call
or such a hand-over is in progress, because those hold one. Calls of the owner's code, such as the
`init` of a task, are open at both ends: anything may happen between `CallTurn.callInit` and
`SetEvent.initialized`, and an `init` that panics or is dropped is a call that is abandoned.
-/

namespace Overseer

/-- Something that happens to a supervised set. -/
inductive SetEvent (κ ξ : Type) where
  | begin (c : CallId) (request : Request κ ξ) (parentCancelled : Bool)
  | poll (c : CallId) (parentCancelled : Bool)
  /-- The `init` of a task that a call asked for has returned. -/
  | initialized (c : CallId) (result : Except Fault Unit) (parentCancelled : Bool)
  | abandon (c : CallId)
  | unregister (task : TaskRef)
  | pollLoop (l : LoopId) (now : Nat)
  /-- The run of a loop's task has ended. -/
  | ran (l : LoopId) (now : Nat) (ending : Ending Unit)
  | reported (l : LoopId) (poolName : String) (result : Except PoolError Unit)
  | killLoop (l : LoopId)
  /-- The parent token is cancelled. -/
  | cancelRoot
  | drop

/-- What an event of a supervised set results in. -/
inductive SetAnswer (κ : Type) where
  | done
  | call (t : CallTurn)
  | loop (t : LoopTurn κ)
  | result (r : Except SupervisionError Unit)

variable {κ ξ : Type}

namespace TaskSet

/-- Let an event happen. -/
def perform (s : TaskSet κ ξ) : SetEvent κ ξ → TaskSet κ ξ × SetAnswer κ
  | .begin c request p => ((s.begin c request p).1, .call (s.begin c request p).2)
  | .poll c p => ((s.poll c p).1, .call (s.poll c p).2)
  | .initialized c result p => ((s.initialized c result p).1, .call (s.initialized c result p).2)
  | .abandon c => (s.abandon c, .done)
  | .unregister task => ((s.unregister task).1, .result (s.unregister task).2)
  | .pollLoop l now => ((s.pollLoop l now).1, .loop (s.pollLoop l now).2)
  | .ran l now ending => ((s.ran l now ending).1, .loop (s.ran l now ending).2)
  | .reported l poolName result => (s.reported l poolName result, .done)
  | .killLoop l => (s.killLoop l, .done)
  | .cancelRoot => (s.cancelRoot, .done)
  | .drop => (s.drop, .done)

end TaskSet

/-- The call that an event begins. -/
def SetEvent.begins? : SetEvent κ ξ → Option CallId
  | .begin c _ _ => some c
  | _ => none

/-- An event of a set with the state that it found. -/
abbrev SetOccurrence (κ ξ : Type) := Occurrence (TaskSet κ ξ) (SetEvent κ ξ)

/-- The calls so far. -/
def begun (h : List (SetOccurrence κ ξ)) : List CallId := h.filterMap fun o => o.event.begins?

/-- What the outside promises about the next event of a set. -/
def TaskSet.allows (h : List (SetOccurrence κ ξ)) (s : TaskSet κ ξ) : SetEvent κ ξ → Bool
  | .begin c _ _ => !s.dropped && !(begun h).contains c
  | .unregister _ => !s.dropped
  | .ran l _ _ => s.loops.any fun x => x.id == l && x.phase == .running
  | .reported l _ _ => s.loops.any fun x => x.id == l && x.phase == .reporting
  | .drop => !s.dropped && s.calls.isEmpty && s.loops.all fun x => x.phase != .reporting
  | _ => true

namespace TaskSet

variable {h : List (SetOccurrence κ ξ)} {s : TaskSet κ ξ}

theorem allows_begin {c : CallId} {request : Request κ ξ} {parentCancelled : Bool} :
    allows h s (.begin c request parentCancelled) = true ↔ s.dropped = false ∧ c ∉ begun h := by
  simp [allows]

theorem allows_ran {l : LoopId} {now : Nat} {ending : Ending Unit} :
    allows h s (.ran l now ending) = true ↔ ∃ x ∈ s.loops, x.id = l ∧ x.phase = .running := by
  simp [allows]

theorem allows_reported {l : LoopId} {poolName : String} {result : Except PoolError Unit} :
    allows h s (.reported l poolName result) = true ↔
      ∃ x ∈ s.loops, x.id = l ∧ x.phase = .reporting := by
  simp [allows]

theorem allows_drop : allows h s .drop = true ↔
    s.dropped = false ∧ s.calls = [] ∧ ∀ x ∈ s.loops, x.phase ≠ .reporting := by
  simp [allows, and_assoc]

end TaskSet

/-- A supervised set to which events happen. The outside sees the notices and the answer. -/
def setSystem (κ ξ : Type) :
    System (TaskSet κ ξ) (SetEvent κ ξ) (List SetNotice × SetAnswer κ) where
  starts s := ∃ name pool, s = { name := name, pool := pool }
  happen s e := ((s.perform e).1.collect.2, ((s.perform e).1.collect.1, (s.perform e).2))
  allows := TaskSet.allows

theorem starts_new (name : String) (pool : Option PoolId) :
    (setSystem κ ξ).starts { name := name, pool := pool } := ⟨name, pool, rfl⟩

end Overseer
