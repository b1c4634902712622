/-!
# Idle lists

The workers that wait for a unit, ordered by the time they went idle, the oldest first. A
`stack` grows without bound and hands out the newest item; a `ring` has a fixed capacity and
hands out the oldest. `expire` removes what has been idle for at least the expiry, which is
a front part of the list because stamps never decrease.
-/

namespace Overseer

/-- Which item is reused first, and whether the list can be full. -/
inductive Discipline where
  /-- Last in, first out; never full. -/
  | stack
  /-- First in, first out; full at `capacity`. -/
  | ring (capacity : Nat)
  deriving DecidableEq, Repr

/-- Items with the times at which they went idle, oldest first. -/
structure IdleList (α : Type) where
  discipline : Discipline
  items : List (α × Nat) := []
  deriving DecidableEq, Repr

namespace IdleList

variable {α : Type}

def size (l : IdleList α) : Nat := l.items.length

/-- Does the list accept one more item? -/
def hasRoom (l : IdleList α) : Bool :=
  match l.discipline with
  | .stack => true
  | .ring capacity => l.items.length < capacity

/-- Put `a` at the newest end, stamped `now`. A full list refuses. -/
def insert? (l : IdleList α) (a : α) (now : Nat) : Option (IdleList α) :=
  if l.hasRoom then some { l with items := l.items ++ [(a, now)] } else none

/-- The items in the order in which they are handed out. -/
def inOrder (l : IdleList α) : List (α × Nat) :=
  match l.discipline with
  | .stack => l.items.reverse
  | .ring _ => l.items

/-- The list whose items are handed out in the order `rest`. -/
def withOrder (l : IdleList α) (rest : List (α × Nat)) : IdleList α :=
  match l.discipline with
  | .stack => { l with items := rest.reverse }
  | .ring _ => { l with items := rest }

/-- Take the next item to reuse. -/
def detach? (l : IdleList α) : Option (α × IdleList α) :=
  match l.inOrder with
  | [] => none
  | (a, _) :: rest => some (a, l.withOrder rest)

/-- Take the next item that is `live`, and drop those before it. The dropped items come in the
order in which they were met. -/
def detachLive (live : α → Bool) (l : IdleList α) : List α × Option α × IdleList α :=
  let dead := (l.inOrder.takeWhile fun x => !live x.1).map Prod.fst
  match l.inOrder.dropWhile fun x => !live x.1 with
  | [] => (dead, none, l.withOrder [])
  | (a, _) :: rest => (dead, some a, l.withOrder rest)

/-- Has an item stamped `since` been idle for at least `expiry` at the time `now`? -/
def expired (expiry now since : Nat) : Bool := since + expiry ≤ now

/-- Remove the expired items, oldest first. -/
def expire (l : IdleList α) (expiry now : Nat) : List α × IdleList α :=
  ((l.items.takeWhile fun x => expired expiry now x.2).map Prod.fst,
    { l with items := l.items.dropWhile fun x => expired expiry now x.2 })

/-- Remove every item, oldest first. -/
def reset (l : IdleList α) : List α × IdleList α :=
  (l.items.map Prod.fst, { l with items := [] })

/-! ## What the operations do to the items -/

theorem items_of_insert? {l l' : IdleList α} {a : α} {now : Nat}
    (h : l.insert? a now = some l') : l'.items = l.items ++ [(a, now)] := by
  unfold insert? at h
  split at h
  · obtain rfl := Option.some.inj h
    rfl
  · contradiction

/-- Only a full ring refuses. -/
theorem insert?_eq_none_iff {l : IdleList α} {a : α} {now : Nat} :
    l.insert? a now = none ↔ ∃ capacity, l.discipline = .ring capacity ∧ capacity ≤ l.size := by
  unfold insert? hasRoom size
  cases l.discipline with
  | stack => simp
  | ring capacity => simp

@[simp] theorem inOrder_withOrder (l : IdleList α) (rest : List (α × Nat)) :
    (l.withOrder rest).inOrder = rest := by
  unfold withOrder inOrder
  cases l.discipline <;> simp

/-- What is handed out is the first in order, and the others keep theirs. -/
theorem inOrder_of_detach? {l l' : IdleList α} {a : α} (h : l.detach? = some (a, l')) :
    ∃ since, l.inOrder = (a, since) :: l'.inOrder := by
  unfold detach? at h
  split at h
  · contradiction
  · rename_i b since rest he
    obtain ⟨rfl, rfl⟩ := Prod.mk.inj (Option.some.inj h)
    exact ⟨since, by rw [he, inOrder_withOrder]⟩

theorem detach?_eq_none_iff {l : IdleList α} : l.detach? = none ↔ l.items = [] := by
  unfold detach? inOrder
  cases l.discipline with
  | stack => split <;> simp_all
  | ring capacity => split <;> simp_all

@[simp] theorem size_inOrder (l : IdleList α) : l.inOrder.length = l.size := by
  unfold inOrder size
  cases l.discipline <;> simp

@[simp] theorem size_withOrder (l : IdleList α) (rest : List (α × Nat)) :
    (l.withOrder rest).size = rest.length := by
  rw [← size_inOrder, inOrder_withOrder]

/-- What is handed out is gone from the list, with all that came before it. -/
theorem size_of_detachLive {live : α → Bool} {l l' : IdleList α} {dead : List α} {a : α}
    (h : l.detachLive live = (dead, some a, l')) : l'.size < l.size := by
  have hsub := (List.dropWhile_sublist (l := l.inOrder) fun x => !live x.1).length_le
  rw [size_inOrder] at hsub
  unfold detachLive at h
  split at h
  · simp at h
  · rename_i b since rest heq
    obtain ⟨-, h⟩ := Prod.mk.inj h
    obtain ⟨-, rfl⟩ := Prod.mk.inj h
    rw [heq, List.length_cons] at hsub
    rw [size_withOrder]
    omega

/-- If nothing is handed out, nothing is left. -/
theorem size_of_detachLive_none {live : α → Bool} {l l' : IdleList α} {dead : List α}
    (h : l.detachLive live = (dead, none, l')) : l'.size = 0 := by
  unfold detachLive at h
  split at h
  · obtain ⟨-, h⟩ := Prod.mk.inj h
    obtain ⟨-, rfl⟩ := Prod.mk.inj h
    exact size_withOrder l []
  · simp at h

/-- What has expired and what stays are all the items, in their order. -/
theorem expire_append (l : IdleList α) (expiry now : Nat) :
    (l.expire expiry now).1 ++ (l.expire expiry now).2.items.map Prod.fst =
      l.items.map Prod.fst := by
  simp only [expire, ← List.map_append, List.takeWhile_append_dropWhile]

theorem size_expire_le (l : IdleList α) (expiry now : Nat) :
    (l.expire expiry now).2.size ≤ l.size :=
  (List.dropWhile_sublist (l := l.items) fun x => expired expiry now x.2).length_le

@[simp] theorem items_reset (l : IdleList α) : l.reset.2.items = [] := rfl

end IdleList

end Overseer
