import Mathlib.Algebra.BigOperators.Ring.Finset
import Overseer.Proofs.Pool.Gauge
import Overseer.Simulation.Session

/-!
# Pools that share a name

A `Fleet` is all the pools that were ever created, those that are gone among them. Any number of
them may go by one name, and one gauge is kept for each name: what the pools of that name have
counted, one after the other. A history of a fleet is a history of each of its pools
(`pool_of_run`).

The gauge of a name is ahead of the workers that exist in its pools by as many as were stranded
there, so that it is right exactly if nobody was. When nobody can move and no unit is executed, it
is ahead of the slots that are taken in the pools that still exist by those who were stranded in
the others (`gauge_of_fleet`). `gauge_drifts` is a run in which one pool is dropped while its
worker runs a unit. The gauge that it shares with the next pool shows one worker too many for good.
-/

namespace Overseer

/-- Pools, in the order in which they were created. -/
structure Fleet (υ : Type) where
  pools : List (Pool υ)

/-- Something that happens to a fleet. -/
inductive FleetEvent (υ : Type) where
  | create (capacity : Int) (options : PoolOptions) (now : Nat)
  /-- Something happens to one of the pools. -/
  | pool (i : Nat) (e : PoolEvent υ)

/-- An event of a fleet with the state that it found. -/
abbrev FleetOccurrence (υ : Type) := Occurrence (Fleet υ) (FleetEvent υ)

namespace Fleet

variable {υ : Type}

/-- Let an event happen. -/
def perform (f : Fleet υ) : FleetEvent υ → Fleet υ
  | .create capacity options now =>
    match Pool.new capacity options now with
    | .ok p => { pools := f.pools ++ [p.collect.2] }
    | .error _ => f
  | .pool i e => { pools := f.pools.modify i fun p => ((poolSystem υ).happen p e).1 }

/-- What an event is to one of the pools. -/
def part? (f : Fleet υ) (i : Nat) : FleetEvent υ → Option (Occurrence (Pool υ) (PoolEvent υ))
  | .create _ _ _ => none
  | .pool j e => if j = i then f.pools[i]?.map (⟨·, e⟩) else none

/-- What happens to one of the pools. -/
def part (i : Nat) (h : List (FleetOccurrence υ)) : List (Occurrence (Pool υ) (PoolEvent υ)) :=
  h.filterMap fun o => o.before.part? i o.event

/-- What the outside promises about the next event: to each pool what it promises to that pool. -/
def allows (h : List (FleetOccurrence υ)) (f : Fleet υ) : FleetEvent υ → Bool
  | .create _ _ _ => true
  | .pool i e => f.pools[i]?.any fun p => Pool.allows (part i h) p e

end Fleet

/-- Pools that are created, used and dropped. -/
def fleetSystem (υ : Type) : System (Fleet υ) (FleetEvent υ) Unit where
  starts f := f.pools = []
  happen f e := (f.perform e, ())
  allows := Fleet.allows

namespace Fleet

variable {υ : Type} {f : Fleet υ} {h : List (FleetOccurrence υ)} {i : Nat} {p : Pool υ}

/-! ## The history of one pool -/

theorem part_append (i : Nat) (h : List (FleetOccurrence υ)) (f : Fleet υ) (e : FleetEvent υ) :
    part i (h ++ [⟨f, e⟩]) = part i h ++ (f.part? i e).toList := by
  unfold part
  rw [List.filterMap_append]
  cases he : f.part? i e <;> simp [he]

/-- The pool in place `i` has come about by what has happened to it, and nothing has happened to
one that was not created yet. -/
structure Traced (i : Nat) (h : List (FleetOccurrence υ)) (f : Fleet υ) : Prop where
  there : ∀ p, f.pools[i]? = some p → (poolSystem υ).Run (part i h) p
  absent : f.pools[i]? = none → part i h = []

theorem Traced.create (ht : Traced i h f) (capacity : Int) (options : PoolOptions) (now : Nat) :
    Traced i (h ++ [⟨f, .create capacity options now⟩])
      (f.perform (.create capacity options now)) := by
  have hpart : part i (h ++ [⟨f, .create capacity options now⟩]) = part i h := by
    rw [part_append]
    exact List.append_nil _
  cases hnew : (Pool.new capacity options now : Except PoolError (Pool υ)) with
  | error e =>
    have hsame : f.perform (.create capacity options now) = f := by simp [perform, hnew]
    rw [hsame]
    exact ⟨hpart ▸ ht.there, hpart ▸ ht.absent⟩
  | ok p₀ =>
    have hmore : f.perform (.create capacity options now) = ⟨f.pools ++ [p₀.collect.2]⟩ := by
      simp [perform, hnew]
    rw [hmore]
    refine ⟨fun p hp => ?_, fun hnone => ?_⟩
    · rw [hpart]
      rcases Nat.lt_trichotomy i f.pools.length with hi | rfl | hi
      · exact ht.there p (List.getElem?_append_left hi ▸ hp)
      · rw [List.getElem?_concat_length] at hp
        obtain rfl := Option.some.inj hp
        rw [ht.absent (List.getElem?_eq_none (Nat.le_refl _))]
        exact .start ⟨capacity, options, now, p₀, hnew, rfl⟩
      · rw [List.getElem?_eq_none (by simp; omega)] at hp
        contradiction
    · rw [hpart]
      refine ht.absent ?_
      rw [List.getElem?_eq_none_iff] at hnone ⊢
      simp only [List.length_append] at hnone
      omega

theorem Traced.pool (ht : Traced i h f) {j : Nat} {e : PoolEvent υ}
    (hall : f.allows h (.pool j e) = true) :
    Traced i (h ++ [⟨f, .pool j e⟩]) (f.perform (.pool j e)) := by
  have hpools : (f.perform (.pool j e)).pools[i]? =
      if j = i then f.pools[i]?.map fun p => ((poolSystem υ).happen p e).1 else f.pools[i]? := by
    simp only [perform, List.getElem?_modify]
    split <;> simp
  by_cases hj : j = i
  · subst hj
    obtain ⟨p₀, hp₀, hallowed⟩ := (Option.any_eq_true _ _).1 hall
    rw [if_pos rfl, hp₀, Option.map_some] at hpools
    have hpart : part j (h ++ [⟨f, .pool j e⟩]) = part j h ++ [⟨p₀, e⟩] := by
      simp [part_append, part?, hp₀]
    refine ⟨fun p hp => ?_, fun hnone => ?_⟩
    · obtain rfl := Option.some.inj (hpools.symm.trans hp)
      rw [hpart]
      exact (ht.there p₀ hp₀).next hallowed
    · rw [hpools] at hnone
      contradiction
  · have hpart : part i (h ++ [⟨f, .pool j e⟩]) = part i h := by simp [part_append, part?, hj]
    rw [if_neg hj] at hpools
    exact ⟨fun p hp => hpart ▸ ht.there p (hpools ▸ hp), fun hnone =>
      hpart ▸ ht.absent (hpools ▸ hnone)⟩

theorem traced_of_run (hrun : (fleetSystem υ).Run h f) (i : Nat) : Traced i h f := by
  induction hrun with
  | @start f hs =>
    have hnone : f.pools = [] := hs
    exact ⟨fun p hp => by simp [hnone] at hp, fun _ => rfl⟩
  | @next h f e hrun hall ih =>
    cases e with
    | create capacity options now => exact ih.create capacity options now
    | pool j e => exact ih.pool hall

/-- A history of a fleet is one of each of its pools. -/
theorem pool_of_run (hrun : (fleetSystem υ).Run h f) (hp : f.pools[i]? = some p) :
    (poolSystem υ).Run (part i h) p :=
  (traced_of_run hrun i).there p hp

/-! ## Sums over pools -/

section Sums

variable {α : Type} [AddCommMonoid α]

/-- The sum of `g` over the pools of one kind, each with its place. -/
def total (f : Fleet υ) (kind : Pool υ → Bool) (g : Nat → Pool υ → α) : α :=
  ((f.pools.zipIdx.filter fun x => kind x.1).map fun x => g x.2 x.1).sum

theorem total_congr {kind : Pool υ → Bool} {g g' : Nat → Pool υ → α}
    (hg : ∀ i p, f.pools[i]? = some p → kind p = true → g i p = g' i p) :
    f.total kind g = f.total kind g' := by
  unfold total
  refine congrArg List.sum (List.map_congr_left fun x hx => ?_)
  obtain ⟨hmem, hkind⟩ := List.mem_filter.1 hx
  exact hg x.2 x.1 (List.mk_mem_zipIdx_iff_getElem?.1 hmem) hkind

theorem total_add (f : Fleet υ) (kind : Pool υ → Bool) (g g' : Nat → Pool υ → α) :
    f.total kind (fun i p => g i p + g' i p) = f.total kind g + f.total kind g' :=
  List.sum_map_add

/-- The pools of one kind are those that have a property and those that do not. -/
theorem total_split (f : Fleet υ) (kind prop : Pool υ → Bool) (g : Nat → Pool υ → α) :
    f.total kind g =
      f.total (fun p => kind p && !prop p) g + f.total (fun p => kind p && prop p) g := by
  unfold total
  induction f.pools.zipIdx with
  | nil => exact (add_zero _).symm
  | cons x xs ih =>
    cases hkind : kind x.1 with
    | false => simpa [hkind] using ih
    | true =>
      cases hprop : prop x.1 with
      | false => simp [hkind, hprop, ih, add_assoc]
      | true => simp [hkind, hprop, ih, add_left_comm]

/-- The places do not matter for a sum that does not ask for them. -/
theorem total_eq_sum (f : Fleet υ) (kind : Pool υ → Bool) (g : Pool υ → α) :
    f.total kind (fun _ p => g p) = ((f.pools.filter kind).map g).sum := by
  have hpools : (f.pools.zipIdx.filter fun x => kind x.1).map Prod.fst = f.pools.filter kind := by
    rw [← List.zipIdx_map_fst 0 f.pools, List.filter_map, List.zipIdx_map_fst]
    rfl
  rw [← hpools, List.map_map]
  rfl

end Sums

theorem total_eq_zero_iff {kind : Pool υ → Bool} {g : Nat → Pool υ → Nat} :
    f.total kind g = 0 ↔ ∀ i p, f.pools[i]? = some p → kind p = true → g i p = 0 := by
  simp only [total, List.sum_eq_zero_iff_forall_eq_nat, List.forall_mem_map, List.mem_filter,
    and_imp, Prod.forall, List.mk_mem_zipIdx_iff_getElem?]
  exact forall_comm

/-! ## What is counted -/

/-- Does the pool go by this name? -/
def named (name : String) (p : Pool υ) : Bool := p.name == name

/-- Does the pool go by this name, and does it still exist? -/
def kept (name : String) (p : Pool υ) : Bool := named name p && !p.dropped

/-- Did the pool go by this name, and is it gone? -/
def gone (name : String) (p : Pool υ) : Bool := named name p && p.dropped

/-- The gauge of running workers that is kept under a name. -/
def gauge (f : Fleet υ) (name : String) : Int := f.total (named name) fun _ p => p.tally.running

/-- The workers that exist in a kind of pools. -/
def live (f : Fleet υ) (kind : Pool υ → Bool) : Nat := f.total kind fun _ p => p.workers.length

/-- The workers that a kind of pools report as running. -/
def running (f : Fleet υ) (kind : Pool υ → Bool) : Nat := f.total kind fun _ p => p.running

/-- The workers that were stranded in a kind of pools. -/
def stranded (f : Fleet υ) (h : List (FleetOccurrence υ)) (kind : Pool υ → Bool) : Nat :=
  f.total kind fun i _ => (part i h).countP Pool.strands

/-- Nobody can move, and no unit is executed. -/
def IsStill (f : Fleet υ) : Prop :=
  ∀ p ∈ f.pools, p.isQuiet = true ∧ p.floor.executing = []

/-- The gauge of a name is what a session counts under that name. -/
theorem totals_running (w : Simulation.World) (name : String) :
    (w.totals name).running = gauge ⟨w.pools.toList.map (·.pool)⟩ name := by
  have hsum : ∀ (xs : List Simulation.PoolObject) (t : Tally), (xs.foldl (fun t x => {
      spawned := t.spawned + x.pool.tally.spawned
      evicted := t.evicted + x.pool.tally.evicted
      rejected := t.rejected + x.pool.tally.rejected
      panicked := t.panicked + x.pool.tally.panicked
      running := t.running + x.pool.tally.running }) t).running =
        t.running + (xs.map fun x => x.pool.tally.running).sum := by
    intro xs
    induction xs with
    | nil => exact fun t => (add_zero _).symm
    | cons x xs ih =>
      intro t
      rw [List.foldl_cons, ih, List.map_cons, List.sum_cons, add_assoc]
  unfold gauge
  rw [total_eq_sum, List.filter_map, List.map_map]
  exact (hsum _ {}).trans (zero_add _)

/-- The gauge shows the slots that are taken, whichever pools of the name still exist. -/
theorem gauge_eq_running (hrun : (fleetSystem υ).Run h f) (name : String) :
    f.gauge name = f.running (named name) := by
  have hcast : f.gauge name = f.total (named name) fun _ p => (p.running : Int) :=
    total_congr fun i p hp _ => Pool.gauge_of_run (pool_of_run hrun hp)
  rw [hcast]
  simp [running, total, Nat.cast_list_sum, Function.comp_def]

/-- Nobody was stranded in pools of a kind exactly if no event of theirs strands a worker. -/
theorem stranded_eq_zero_iff (f : Fleet υ) (h : List (FleetOccurrence υ))
    (kind : Pool υ → Bool) : f.stranded h kind = 0 ↔
    ∀ i p, f.pools[i]? = some p → kind p = true → ∀ o ∈ part i h, Pool.strands o = false := by
  simp only [stranded, total_eq_zero_iff, List.countP_eq_zero, Bool.not_eq_true]

/-- The slots that are taken in pools of a kind are those of the workers that exist, and of those
that were stranded. -/
theorem running_eq (hrun : (fleetSystem υ).Run h f) (kind : Pool υ → Bool) :
    f.running kind = f.live kind + f.stranded h kind := by
  unfold running live stranded
  rw [← total_add]
  exact total_congr fun i p hp _ => Pool.standing_of_run (pool_of_run hrun hp)

/-- When nobody can move and no unit is executed, the pools that are gone have no workers. -/
theorem live_gone (hrun : (fleetSystem υ).Run h f) (hstill : f.IsStill) (name : String) :
    f.live (gone name) = 0 := by
  refine total_eq_zero_iff.2 fun i p hp hgone => ?_
  obtain ⟨hquiet, hrests⟩ := hstill p (List.mem_of_getElem? hp)
  have hdropped : p.dropped = true := (Bool.and_eq_true_iff.1 hgone).2
  rw [Pool.workers_of_still (pool_of_run hrun hp) hdropped hquiet hrests]
  rfl

/-- Whatever happens to any number of pools, and whichever of them share a name: the gauge of a name
is ahead of the workers that exist in all pools that ever had that name by the workers that were
stranded there, and right exactly if nobody was. When nobody can move and no unit is executed, it is
ahead of what the pools that still exist report as running by the workers that were stranded in
those that are gone, and equal to it exactly if nobody was. -/
theorem gauge_of_fleet (hrun : (fleetSystem υ).Run h f) (name : String) :
    f.gauge name = f.live (named name) + f.stranded h (named name) ∧
    (f.gauge name = f.live (named name) ↔ ∀ i p, f.pools[i]? = some p → p.name = name →
      ∀ o ∈ part i h, Pool.strands o = false) ∧
    (f.IsStill →
      f.gauge name = f.running (kept name) + f.stranded h (gone name) ∧
      (f.gauge name = f.running (kept name) ↔ ∀ i p, f.pools[i]? = some p → p.name = name →
        p.dropped = true → ∀ o ∈ part i h, Pool.strands o = false)) := by
  have hgauge := gauge_eq_running hrun name
  have hstanding := running_eq hrun (named name)
  have hnobody := stranded_eq_zero_iff f h (named name)
  simp only [named, beq_iff_eq] at hnobody
  refine ⟨by omega, ?_, fun hstill => ?_⟩
  · rw [← hnobody]
    omega
  · have hsplit : f.running (named name) = f.running (kept name) + f.running (gone name) :=
      total_split f (named name) (·.dropped) _
    have hgone := running_eq hrun (gone name)
    have hempty := live_gone hrun hstill name
    have hnobody := stranded_eq_zero_iff f h (gone name)
    simp only [gone, named, Bool.and_eq_true, beq_iff_eq, and_imp] at hnobody
    refine ⟨by omega, ?_⟩
    rw [← hnobody]
    omega

/-- Two pools of one name. The first is dropped while one of its workers runs a unit and another
has yet to start one, and both end after that. The worker of the second has ended its unit and is
idle. -/
theorem gauge_of_fleet_shared : ∃ (h : List (FleetOccurrence Nat)) (f : Fleet Nat),
    (fleetSystem Nat).Run h f ∧ f.IsStill ∧ f.live (named "worker_pool") = 1 ∧
      f.stranded h (gone "worker_pool") = 2 ∧ f.running (kept "worker_pool") = 1 ∧
      f.gauge "worker_pool" = 3 ∧
      f.gauge "worker_pool" = f.live (named "worker_pool") + f.stranded h (named "worker_pool") ∧
      f.gauge "worker_pool" =
        f.running (kept "worker_pool") + f.stranded h (gone "worker_pool") := by
  have hstart : (fleetSystem Nat).starts ⟨[]⟩ := rfl
  obtain ⟨h, f, hrun, hcheck⟩ := System.exists_run_of_replay hstart
    [.create 2 {} 0, .pool 0 (.submit 0 10), .pool 0 (.pollWorker 0), .pool 0 (.submit 1 11),
      .create 2 {} 3, .pool 1 (.submit 0 20), .pool 1 (.pollWorker 0), .pool 1 (.complete 0 5),
      .pool 0 .drop, .pool 0 (.pollWorker 1), .pool 0 (.complete 0 7), .pool 0 (.complete 1 8)]
    (fun h f => (f.pools.all fun p => p.isQuiet && p.floor.executing.isEmpty) &&
      f.live (named "worker_pool") == 1 && f.stranded h (gone "worker_pool") == 2 &&
      f.running (kept "worker_pool") == 1 && f.gauge "worker_pool" == 3) (by decide)
  simp only [Bool.and_eq_true, List.all_eq_true, List.isEmpty_iff, beq_iff_eq] at hcheck
  obtain ⟨⟨⟨⟨hstill, hlive⟩, hstranded⟩, hrunning⟩, hgauge⟩ := hcheck
  obtain ⟨hahead, -, hrest⟩ := gauge_of_fleet hrun "worker_pool"
  exact ⟨h, f, hrun, hstill, hlive, hstranded, hrunning, hgauge, hahead, (hrest hstill).1⟩

/-- A pool is dropped while its worker runs a unit. The worker ends, and the gauge still counts
it. -/
theorem gauge_drifts : ¬ ∀ (h : List (FleetOccurrence Nat)) (f : Fleet Nat),
    (fleetSystem Nat).Run h f → ∀ name, f.gauge name = f.live (named name) := by
  intro hclaim
  have hstart : (fleetSystem Nat).starts ⟨[]⟩ := rfl
  obtain ⟨h, f, hrun, hcheck⟩ := System.exists_run_of_replay hstart
    [.create 2 {} 0, .pool 0 (.submit 0 10), .pool 0 (.pollWorker 0), .create 2 {} 0,
      .pool 0 .drop, .pool 0 (.complete 0 5)]
    (fun _ f => f.gauge "worker_pool" != f.live (named "worker_pool")) (by decide)
  exact (bne_iff_ne.1 hcheck) (hclaim h f hrun "worker_pool")

end Fleet

end Overseer
