import Overseer.Proofs.History
import Overseer.Proofs.Sorting
import Overseer.Proofs.Supervision.Registry

/-!
# The order of a registry

A registry by itself: tasks come in that are not there yet, one of them goes, or all of them go.
`standing` reads off the history who has come in and not gone since, in the order in which they
came. `insert` looks for a place with the keys alone, and `remove` looks at none, but through any
mixture of both the registry is the stable sort of `standing` by key, and each task is found under
its identity (`registry_of_run`).

The step from one event to the next is about pairs (`Ranks`): of two registrations with one key, the
one comes first that came in first.
-/

namespace Overseer

variable {κ ξ : Type}

/-- Something that happens to a registry. -/
inductive RegistryEvent (κ ξ : Type) where
  | insert (x : Registration κ ξ)
  | remove (id : TaskId)
  | drain
  deriving DecidableEq

namespace RegistryEvent

/-- Does a task go that is registered under this identity? -/
def expels (id : TaskId) : RegistryEvent κ ξ → Bool
  | .insert _ => false
  | .remove id' => id == id'
  | .drain => true

end RegistryEvent

namespace Registry

/-- Let an event happen. The result is who goes. -/
def perform (r : Registry κ ξ) : RegistryEvent κ ξ → Registry κ ξ × List (Registration κ ξ)
  | .insert x => (r.insert x, [])
  | .remove id => (r.remove id, (r.lookup? id).toList)
  | .drain => ([], r)

/-- What the outside promises about the next event: a task that comes in is not registered. -/
def allows (r : Registry κ ξ) : RegistryEvent κ ξ → Bool
  | .insert x => !r.has x.task.id
  | _ => true

end Registry

abbrev RegistryOccurrence (κ ξ : Type) := Occurrence (Registry κ ξ) (RegistryEvent κ ξ)

/-- A registry to which events happen. The outside sees who goes. -/
def registrySystem (κ ξ : Type) :
    System (Registry κ ξ) (RegistryEvent κ ξ) (List (Registration κ ξ)) where
  starts r := r = []
  happen := Registry.perform
  allows _ := Registry.allows

namespace Registry

variable {r : Registry κ ξ} {x : Registration κ ξ} {id : TaskId} {e : RegistryEvent κ ξ}
  {xs : List (Registration κ ξ)} {h : List (RegistryOccurrence κ ξ)}

/-! ## Who has come in and not gone -/

/-- Who has come in and not gone since, in the order in which they came in. -/
def standing : List (RegistryOccurrence κ ξ) → List (Registration κ ξ)
  | [] => []
  | o :: post =>
    match o.event with
    | .insert x =>
      if post.any (·.event.expels x.task.id) then standing post else x :: standing post
    | _ => standing post

/-- What an event makes of those who stand. -/
def stand (xs : List (Registration κ ξ)) : RegistryEvent κ ξ → List (Registration κ ξ)
  | .insert x => xs ++ [x]
  | e => xs.filter fun x => !e.expels x.task.id

theorem standing_append (h : List (RegistryOccurrence κ ξ)) (r : Registry κ ξ)
    (e : RegistryEvent κ ξ) : standing (h ++ [⟨r, e⟩]) = stand (standing h) e := by
  induction h with
  | nil => cases e <;> rfl
  | cons o h ih =>
    obtain ⟨r', e'⟩ := o
    cases e' with
    | remove id => exact ih
    | drain => exact ih
    | insert x =>
      simp only [List.cons_append, standing, List.any_append, List.any_cons, List.any_nil,
        Bool.or_false, ih]
      cases h.any (·.event.expels x.task.id) with
      | true => rfl
      | false => cases e <;> simp [stand, RegistryEvent.expels, List.filter_cons]

/-! ## Where an event puts whom -/

/-- A registry is sorted by key, and of two with one key the one comes first that does in the
list. -/
structure Ranks (r : Registry κ ξ) (xs : List (Registration κ ξ)) : Prop where
  perm : List.Perm r xs
  nodup : (xs.map (·.task.id)).Nodup
  pairs : List.Pairwise (fun a b => a.sortKey ≤ b.sortKey ∧
    (b.sortKey ≤ a.sortKey → [a, b].Sublist xs)) r

theorem Ranks.nodup_ids (hr : r.Ranks xs) : (List.map (·.task.id) r).Nodup :=
  (hr.perm.map _).nodup_iff.2 hr.nodup

theorem Ranks.sorted (hr : r.Ranks xs) : List.Pairwise (fun a b => a.sortKey ≤ b.sortKey) r :=
  hr.pairs.imp And.left

theorem Ranks.insert (hr : r.Ranks xs) (hnew : r.has x.task.id = false) :
    (r.insert x).Ranks (xs ++ [x]) where
  perm := (insert_perm x r).trans ((hr.perm.cons x).trans (List.perm_append_singleton x xs).symm)
  nodup := by
    have hother : ∀ y ∈ xs, y.task.id ≠ x.task.id := fun y hy =>
      has_eq_false.1 hnew y (hr.perm.mem_iff.2 hy)
    rw [List.map_append]
    refine List.nodup_append.2 ⟨hr.nodup, List.nodup_singleton _, ?_⟩
    simpa using hother
  pairs := by
    refine insert_of_pairwise (hr.pairs.imp fun hab => ⟨hab.1, fun hties =>
      (hab.2 hties).trans (List.sublist_append_left xs [x])⟩) hr.sorted (fun a ha hle => ⟨hle,
        fun _ => ?_⟩) fun a _ hlt => ⟨Nat.le_of_lt hlt, fun hle => absurd hle (Nat.not_le.2 hlt)⟩
    -- who was there came in before
    exact (List.singleton_sublist.2 (hr.perm.mem_iff.1 ha)).append (.refl [x])

theorem Ranks.filter (hr : r.Ranks xs) (p : Registration κ ξ → Bool) :
    Ranks (List.filter p r) (xs.filter p) where
  perm := hr.perm.filter p
  nodup := hr.nodup.sublist (List.filter_sublist.map _)
  pairs := (hr.pairs.filter p).imp_of_mem fun {a b} ha hb hab => ⟨hab.1, fun hties => by
    have hkept : [a, b].filter p = [a, b] := by
      simp [(List.mem_filter.1 ha).2, (List.mem_filter.1 hb).2]
    exact hkept ▸ (hab.2 hties).filter p⟩

theorem Ranks.perform (hr : r.Ranks xs) (hall : r.allows e = true) :
    (r.perform e).1.Ranks (stand xs e) := by
  cases e with
  | insert x => exact hr.insert (by simpa [allows] using hall)
  | remove id => exact hr.filter _
  | drain =>
    have hnobody := hr.filter fun _ => false
    rw [List.filter_false] at hnobody
    exact hnobody

theorem ranks_of_run (hrun : (registrySystem κ ξ).Run h r) : r.Ranks (standing h) := by
  induction hrun with
  | start hs =>
    obtain rfl := hs
    exact ⟨.refl _, .nil, .nil⟩
  | @next h r e _ hall ih =>
    rw [standing_append]
    exact ih.perform hall

theorem Ranks.eq_mergeSort (hr : r.Ranks xs) :
    r = xs.mergeSort fun a b => a.sortKey ≤ b.sortKey := by
  classical
  refine Overseer.eq_mergeSort (fun a b c hab hbc => ?_) (fun a b => ?_) hr.nodup.of_map hr.perm
    (hr.pairs.imp fun hab => by simpa using hab)
  · simp only [decide_eq_true_eq] at hab hbc ⊢
    exact Nat.le_trans hab hbc
  · simpa using Nat.le_total a.sortKey b.sortKey

/-- The order does not matter to what a look-up finds. -/
theorem Ranks.lookup? (hr : r.Ranks xs) (id : TaskId) :
    r.lookup? id = xs.find? (·.task.id == id) := by
  cases hfound : xs.find? (·.task.id == id) with
  | some x =>
    have hx : x ∈ r := hr.perm.mem_iff.2 (List.mem_of_find?_eq_some hfound)
    obtain rfl : x.task.id = id := by simpa using List.find?_some hfound
    exact lookup?_eq_some hr.nodup_ids hx
  | none =>
    refine List.find?_eq_none.2 fun x hx => ?_
    exact List.find?_eq_none.1 hfound x (hr.perm.mem_iff.1 hx)

/-- Whatever happens to a registry, it lists those who have come in and not gone since, each once,
in the stable sort by key of the order in which they came in, and it finds each of them. Under an
identity that one goes who came in under it, and the others stay in their order. If all of them go,
they go in the order in which they were listed, and nobody is left. -/
theorem registry_of_run (hrun : (registrySystem κ ξ).Run h r) :
    r = (standing h).mergeSort (fun a b => a.sortKey ≤ b.sortKey) ∧
    ((standing h).map (·.task.id)).Nodup ∧
    (∀ id, r.lookup? id = (standing h).find? (·.task.id == id)) ∧
    ∀ pre o post, h = pre ++ o :: post →
      (∀ id, o.event = .remove id →
        (registrySystem κ ξ).shows o = ((standing pre).find? (·.task.id == id)).toList ∧
        List.Sublist ((registrySystem κ ξ).after o) o.before ∧
        ∀ x, x ∈ (registrySystem κ ξ).after o ↔ x ∈ o.before ∧ x.task.id ≠ id) ∧
      (o.event = .drain →
        (registrySystem κ ξ).shows o =
          (standing pre).mergeSort (fun a b => a.sortKey ≤ b.sortKey) ∧
        (registrySystem κ ξ).after o = []) := by
  have hranks := ranks_of_run hrun
  refine ⟨hranks.eq_mergeSort, hranks.nodup, hranks.lookup?, fun pre o post heq => ?_⟩
  have hbefore := ranks_of_run (hrun.split heq).1
  obtain ⟨r', e⟩ := o
  refine ⟨fun id hremoves => ?_, fun hdrains => ?_⟩
  · obtain rfl : e = .remove id := hremoves
    exact ⟨congrArg Option.toList (hbefore.lookup? id), List.filter_sublist, fun x => mem_remove⟩
  · obtain rfl : e = .drain := hdrains
    exact ⟨hbefore.eq_mergeSort, rfl⟩

/-- The registration of a task with one priority. -/
def prioritized (id : TaskId) (priority : Nat) : Registration Unit Unit where
  ticket := id
  task := ⟨id, ""⟩
  args := []
  options := ({} : RegisterOptions PoolId Unit).withPriority priority
  order := none
  extra := ()

/-- Two keys tie in pairs. The first task goes and comes in again, behind the one that it tied with.
Then all go. -/
theorem registry_of_run_drained : ∃ (h pre post : List (RegistryOccurrence Unit Unit))
    (o : RegistryOccurrence Unit Unit) (r : Registry Unit Unit),
    (registrySystem Unit Unit).Run h r ∧ h = pre ++ o :: post ∧
      (standing pre).map (·.task.id) = [1, 2, 3, 0] ∧ o.event = .drain ∧
      List.map (·.task.id) ((registrySystem Unit Unit).shows o) = [1, 3, 2, 0] ∧
      (registrySystem Unit Unit).shows o =
        (standing pre).mergeSort (fun a b => a.sortKey ≤ b.sortKey) ∧
      r = (standing h).mergeSort (fun a b => a.sortKey ≤ b.sortKey) := by
  have hstart : (registrySystem Unit Unit).starts [] := rfl
  obtain ⟨h, r, hrun, hcheck⟩ := System.exists_run_of_replay hstart
    [.insert (prioritized 0 10), .insert (prioritized 1 5), .insert (prioritized 2 10),
      .insert (prioritized 3 5), .remove 0, .insert (prioritized 0 10), .drain]
    (fun h _ => passesAt 6 (fun pre (o : RegistryOccurrence Unit Unit) _ =>
      decide (o.event = .drain ∧ (standing pre).map (·.task.id) = [1, 2, 3, 0] ∧
        List.map (·.task.id) ((registrySystem Unit Unit).shows o) = [1, 3, 2, 0])) h) (by decide)
  obtain ⟨pre, o, post, heq, hcheck⟩ := exists_of_passesAt hcheck
  obtain ⟨hdrains, hstanding, hshown⟩ := of_decide_eq_true hcheck
  obtain ⟨hsorted, -, -, hgo⟩ := registry_of_run hrun
  exact ⟨h, pre, post, o, r, hrun, heq, hstanding, hdrains, hshown,
    ((hgo pre o post heq).2 hdrains).1, hsorted⟩

end Registry

end Overseer
