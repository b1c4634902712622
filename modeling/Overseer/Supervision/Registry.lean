import Overseer.Argument
import Overseer.Pool.Options
import Overseer.Supervision.Lock
import Overseer.Supervision.Options

/-!
# The registry of a supervised set

Registrations in the order in which their tasks are visited: by ascending sort key, and among
equal keys in the order in which they came. `insert` keeps that order, `remove` and `modify`
leave everything else in its place. `schedule` is the order in which startup initializes what
is registered.
-/

namespace Overseer

/-- The identity of a task. -/
abbrev TaskId := Nat

/-- A polling loop of a set. -/
abbrev LoopId := Nat

/-- A task, as a set knows it. -/
structure TaskRef where
  id : TaskId
  name : String
  deriving DecidableEq, Repr

/-- How far a registered task has come. -/
inductive TaskState where
  | registered | initialized | running
  deriving DecidableEq, Repr

namespace TaskState

def shown : TaskState → String
  | registered => "Registered"
  | initialized => "Initialized"
  | running => "Running"

end TaskState

/-- Why a task leaves its set. -/
inductive Departure where
  | stopped | failed | destroyed
  deriving DecidableEq, Repr

namespace Departure

def shown : Departure → String
  | stopped => "stopped"
  | failed => "failed"
  | destroyed => "destroyed"

end Departure

/-- One stay of a task in a set. -/
structure Registration (κ ξ : Type) where
  /-- The call that registered the task. -/
  ticket : CallId
  task : TaskRef
  args : List Argument
  options : RegisterOptions PoolId κ
  /-- The position of a stage. -/
  order : Option Nat
  /-- What the owner of the set keeps with the registration. -/
  extra : ξ
  state : TaskState := .registered
  /-- The loop that polls the task. -/
  loop : Option LoopId := none
  deriving DecidableEq, Repr

/-- Registered tasks in the order in which they are visited. -/
abbrev Registry (κ ξ : Type) := List (Registration κ ξ)

/-- A task that startup initializes, and the registration for which it does. -/
structure Entry where
  ticket : CallId
  task : TaskRef
  args : List Argument
  deriving DecidableEq, Repr

namespace Registration

variable {κ ξ : Type}

def sortKey (r : Registration κ ξ) : Nat := r.options.sortKey

def entry (r : Registration κ ξ) : Entry := ⟨r.ticket, r.task, r.args⟩

end Registration

namespace Registry

variable {κ ξ : Type}

/-- Put a registration before the first one with a larger key. -/
def insert (x : Registration κ ξ) : Registry κ ξ → Registry κ ξ
  | [] => [x]
  | y :: ys => if x.sortKey < y.sortKey then x :: y :: ys else y :: insert x ys

/-- Nothing is lost and nothing else comes in. -/
theorem insert_perm (x : Registration κ ξ) (r : Registry κ ξ) : (insert x r).Perm (x :: r) := by
  induction r with
  | nil => exact List.Perm.refl _
  | cons y ys ih =>
    unfold insert
    split
    · exact List.Perm.refl _
    · exact (ih.cons y).trans (List.Perm.swap x y ys)

def lookup? (r : Registry κ ξ) (id : TaskId) : Option (Registration κ ξ) :=
  List.find? (fun x => x.task.id == id) r

def has (r : Registry κ ξ) (id : TaskId) : Bool := List.any r fun x => x.task.id == id

/-- The registry without a task. -/
def remove (r : Registry κ ξ) (id : TaskId) : Registry κ ξ :=
  List.filter (fun x => x.task.id != id) r

/-- Change the registration of a task. -/
def modify (r : Registry κ ξ) (id : TaskId) (f : Registration κ ξ → Registration κ ξ) :
    Registry κ ξ :=
  List.map (fun x => if x.task.id == id then f x else x) r

/-- Is the position taken? -/
def hasOrder (r : Registry κ ξ) (order : Nat) : Bool := List.any r fun x => x.order == some order

def byOrder? (r : Registry κ ξ) (order : Nat) : Option (Registration κ ξ) :=
  List.find? (fun x => x.order == some order) r

/-- The tasks that go by a name. An empty name finds nothing. -/
def byAlias (r : Registry κ ξ) (name : String) : List TaskRef :=
  if name.isEmpty then []
  else (List.filter (fun x => x.options.aliasName == some name) r).map (·.task)

def tasks (r : Registry κ ξ) : List TaskRef := List.map (·.task) r

/-- The place of a registration under each of its priorities. -/
def turns (r : Registry κ ξ) : List (Nat × Nat) :=
  (List.zipIdx r).flatMap fun x => x.1.options.priorities.map fun p => (p, x.2)

/-- The places in the order of startup: by ascending priority, each registration at the lowest
of its priorities, then those without a priority. -/
def places (r : Registry κ ξ) : List Nat :=
  ((r.turns.mergeSort fun a b => a.1 ≤ b.1).map Prod.snd ++ List.range r.length).eraseDups

/-- What startup initializes, in order. -/
def schedule (r : Registry κ ξ) : List Entry :=
  r.places.filterMap fun i => r[i]?.map (·.entry)

end Registry

end Overseer
