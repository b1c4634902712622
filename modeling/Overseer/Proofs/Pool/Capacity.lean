import Overseer.Proofs.Pool.Steps

/-!
# Running workers against the capacity

Slots are taken when a worker is created and given back when its task ends, and `tune` moves the
capacity under the workers that are there. A worker is created only where a slot is free, so the
number of slots taken never rises to more than the capacity of that moment; a smaller capacity
leaves it above for as long as the surplus workers take to exit, and meanwhile it can only fall
(`capacity_of_run`). No slot is given back twice: there are always at least as many slots taken as
there are workers.
-/

namespace Overseer

variable {υ : Type}

namespace Floor

variable {f f' : Floor υ} {t : Traffic υ}

/-- A slot is taken only where one is free. -/
theorem Attempt.rises {c : CallerId} {u : υ} {r : Submission} (h : f.Attempt c u r f') :
    f'.capacity = f.capacity ∧ (f'.running = f.running ∨
      f'.running = f.running + 1 ∧ ∀ n, f.capacity = some n → f.running < n) := by
  cases h with
  | refuses e _ => exact ⟨rfl, .inl rfl⟩
  | waits _ => exact ⟨rfl, .inl rfl⟩
  | hands _ _ => exact ⟨rfl, .inl rfl⟩
  | hires _ hroom => exact ⟨rfl, .inr ⟨rfl, hroom⟩⟩

/-- A step that takes a slot finds one free and leaves the capacity. -/
theorem Step.rises (h : f.Step t f') (hr : f.running < f'.running) :
    f'.capacity = f.capacity ∧ f'.running = f.running + 1 ∧
      ∀ n, f.capacity = some n → f.running < n := by
  have hattempt : ∀ {g : Floor υ} {c : CallerId} {u : υ} {r : Submission},
      g.Attempt c u r f' → g.running = f.running → g.capacity = f.capacity →
        f'.capacity = f.capacity ∧ f'.running = f.running + 1 ∧
          ∀ n, f.capacity = some n → f.running < n := by
    intro g c u r h hrunning hcapacity
    obtain ⟨hcap, hsame | ⟨hmore, hroom⟩⟩ := h.rises
    · omega
    · rw [hrunning] at hmore hroom
      rw [hcapacity] at hcap hroom
      exact ⟨hcap, hmore, hroom⟩
  cases h with
  | submits h => exact hattempt h rfl rfl
  | resumes _ h => exact hattempt h rfl rfl
  | @leaves x n _ hn =>
    have hfreed : f.freed ≤ f.running := by
      unfold freed
      split <;> omega
    have hless : f.running < n := hr
    omega
  | _ => exact absurd hr (Nat.lt_irrefl _)

/-- A pool stays bounded or unbounded. -/
theorem Step.bounded (h : f.Step t f') : f'.capacity.isSome = f.capacity.isSome := by
  cases h with
  | submits h => rw [h.rises.1]
  | resumes _ h =>
    rw [h.rises.1]
    rfl
  | resizes hbounded =>
    rw [hbounded]
    rfl
  | _ => rfl

end Floor

namespace Pool

variable {p : Pool υ} {h : List (Occurrence (Pool υ) (PoolEvent υ))}

theorem cap_of_capacity {n : Nat} (hn : p.capacity = some n) : p.cap = n := by
  simp [cap, hn]

/-- Did the event make the capacity smaller? -/
def Shrinks (o : Occurrence (Pool υ) (PoolEvent υ)) : Prop :=
  ((poolSystem υ).after o).cap < o.before.cap

instance (o : Occurrence (Pool υ) (PoolEvent υ)) : Decidable (Shrinks o) :=
  inferInstanceAs (Decidable (_ < _))

/-- An event that takes a slot finds fewer slots taken than the capacity, and leaves the
capacity. -/
theorem rises_of_mem (hrun : (poolSystem υ).Run h p) {o : Occurrence (Pool υ) (PoolEvent υ)}
    (ho : o ∈ h) (hbounded : o.before.capacity.isSome = true)
    (hr : o.before.running < ((poolSystem υ).after o).running) :
    ((poolSystem υ).after o).cap = o.before.cap ∧
      ((poolSystem υ).after o).running = o.before.running + 1 ∧
        (o.before.running : Int) < o.before.cap := by
  obtain ⟨n, hn⟩ := Option.isSome_iff_exists.1 hbounded
  obtain ⟨hcap, hmore, hroom⟩ := (step_of_mem hrun ho).2.rises hr
  have hafter : ((poolSystem υ).after o).capacity = some n := hcap.trans hn
  refine ⟨?_, hmore, ?_⟩
  · rw [cap_of_capacity hafter, cap_of_capacity hn]
  · have hfree : o.before.running < n := hroom n hn
    rw [cap_of_capacity hn]
    omega

/-- The states of a run that has come to a bounded pool are bounded. -/
theorem bounded_of_mem (hrun : (poolSystem υ).Run h p) (hbounded : p.capacity.isSome = true) :
    ∀ o ∈ h, o.before.capacity.isSome = true := by
  induction hrun with
  | start _ => simp
  | @next h p e hrun hall ih =>
    have hbefore : p.capacity.isSome = true := by
      have hstep := step_of_perform (tidy_of_run hrun) hall
      exact hstep.bounded.symm.trans hbounded
    intro o ho
    rcases List.mem_append.1 ho with ho | ho
    · exact ih hbefore o ho
    · obtain rfl := List.mem_singleton.1 ho
      exact hbefore

/-- Without a smaller capacity there is never more than the capacity. -/
theorem running_le_cap (hrun : (poolSystem υ).Run h p) (hbounded : p.capacity.isSome = true)
    (hgrown : ∀ o ∈ h, ¬ Shrinks o) : (p.running : Int) ≤ p.cap := by
  induction hrun with
  | start hs =>
    obtain ⟨n, hn⟩ := Option.isSome_iff_exists.1 hbounded
    rw [running_of_start hs, cap_of_capacity hn]
    omega
  | @next h p e hrun hall ih =>
    have hlast : (⟨p, e⟩ : Occurrence (Pool υ) (PoolEvent υ)) ∈ h ++ [⟨p, e⟩] :=
      List.mem_append_right _ (List.mem_singleton_self _)
    have hbefore := bounded_of_mem (hrun.next hall) hbounded _ hlast
    have hkept : p.cap ≤ ((poolSystem υ).happen p e).1.cap := Int.not_lt.1 (hgrown _ hlast)
    have hle : (p.running : Int) ≤ p.cap :=
      ih hbefore fun o ho => hgrown o (List.mem_append_left _ ho)
    by_cases hr : p.running < ((poolSystem υ).happen p e).1.running
    · obtain ⟨-, hmore, hroom⟩ := rises_of_mem (hrun.next hall) hlast hbefore hr
      have hnew : ((poolSystem υ).happen p e).1.running = p.running + 1 := hmore
      have hfree : (p.running : Int) < p.cap := hroom
      omega
    · omega

/-- While the slots taken reach the capacity, no event takes another one. -/
theorem running_le_of_full (hrun : (poolSystem υ).Run h p)
    {o : Occurrence (Pool υ) (PoolEvent υ)} (ho : o ∈ h)
    (hbounded : o.before.capacity.isSome = true) (hfull : o.before.cap ≤ o.before.running) :
    ((poolSystem υ).after o).running ≤ o.before.running := by
  by_contra hr
  obtain ⟨-, -, hroom⟩ := rises_of_mem hrun ho hbounded (Nat.lt_of_not_le hr)
  omega

/-- So their number only falls, for as long as that is so. -/
theorem falls_of_full (hrun : (poolSystem υ).Run h p) (hbounded : p.capacity.isSome = true)
    {pre post : List (Occurrence (Pool υ) (PoolEvent υ))} {o : Occurrence (Pool υ) (PoolEvent υ)}
    (heq : h = pre ++ o :: post) (hfull : ∀ o' ∈ post, o'.before.cap ≤ o'.before.running) :
    ((o :: post).map fun o' => ((poolSystem υ).after o').running).Pairwise (· ≥ ·) := by
  -- the state after the last event has the fewest slots taken so far
  refine (hrun.since (P := fun post p => p.capacity.isSome = true →
    (∀ o' ∈ post, o'.before.cap ≤ o'.before.running) →
      (∀ o' ∈ o :: post, p.running ≤ ((poolSystem υ).after o').running) ∧
      ((o :: post).map fun o' => ((poolSystem υ).after o').running).Pairwise (· ≥ ·))
    (fun _ _ => by simp) ?_ heq hbounded hfull).2
  intro post p e hrun hall ih hbounded hfull
  have hbefore : p.capacity.isSome = true :=
    bounded_of_mem (hrun.next hall) hbounded ⟨p, e⟩ (by simp)
  obtain ⟨hleast, hfalls⟩ := ih hbefore fun o' ho' => hfull o' (List.mem_append_left _ ho')
  have hnow : ((poolSystem υ).happen p e).1.running ≤ p.running :=
    running_le_of_full (o := ⟨p, e⟩) (hrun.next hall) (by simp) hbefore (hfull ⟨p, e⟩ (by simp))
  have hless : ∀ o' ∈ o :: post,
      ((poolSystem υ).happen p e).1.running ≤ ((poolSystem υ).after o').running :=
    fun o' ho' => Nat.le_trans hnow (hleast o' ho')
  refine ⟨fun o' ho' => ?_, ?_⟩
  · rw [← List.cons_append] at ho'
    rcases List.mem_append.1 ho' with ho' | ho'
    · exact hless o' ho'
    · obtain rfl := List.mem_singleton.1 ho'
      exact Nat.le_refl _
  · rw [← List.cons_append, List.map_append, List.pairwise_append]
    refine ⟨hfalls, List.pairwise_singleton _ _, fun m hm n hn => ?_⟩
    obtain ⟨o', ho', rfl⟩ := List.mem_map.1 hm
    obtain rfl := List.mem_singleton.1 hn
    exact hless o' ho'

/-- Whatever has happened to a bounded pool: an event that took a slot left no more slots taken
than the capacity of that moment. So there are never more than the capacity as long as it was not
made smaller, and once it was, the number does not rise before it has come below the capacity
again. No worker that still exists is without a slot. -/
theorem capacity_of_run (hrun : (poolSystem υ).Run h p) (hbounded : p.capacity.isSome = true) :
    (∀ o ∈ h, o.before.running < ((poolSystem υ).after o).running →
      (((poolSystem υ).after o).running : Int) ≤ ((poolSystem υ).after o).cap) ∧
    ((∀ o ∈ h, ¬ Shrinks o) → (p.running : Int) ≤ p.cap) ∧
    (∀ pre o post, h = pre ++ o :: post → Shrinks o →
      (∀ o' ∈ post, o'.before.cap ≤ o'.before.running) →
        ((o :: post).map fun o' => ((poolSystem υ).after o').running).Pairwise (· ≥ ·)) ∧
    p.workers.length ≤ p.running := by
  refine ⟨fun o ho hr => ?_, running_le_cap hrun hbounded, ?_, (tidy_of_run hrun).slots⟩
  · obtain ⟨hcap, hmore, hroom⟩ :=
      rises_of_mem hrun ho (bounded_of_mem hrun hbounded o ho) hr
    rw [hcap, hmore]
    omega
  · intro pre o post heq _ hfull
    exact falls_of_full hrun hbounded heq hfull

/-- Two workers run when the capacity drops to one. The first that ends exits, and the second is
reused for a caller that had to wait. -/
theorem capacity_of_run_shrunk : ∃ (h : List (Occurrence (Pool Nat) (PoolEvent Nat)))
    (p : Pool Nat), (poolSystem Nat).Run h p ∧ p.capacity.isSome = true ∧
      (∃ pre o post, h = pre ++ o :: post ∧ Shrinks o ∧
        (∀ o' ∈ post, o'.before.cap ≤ o'.before.running) ∧
          ((o :: post).map fun o' => ((poolSystem Nat).after o').running).Pairwise (· ≥ ·)) ∧
      p.workers.length ≤ p.running := by
  have hstart : (poolSystem Nat).starts (Pool.create (some 2) {} 0).collect.2 :=
    ⟨2, {}, 0, _, rfl, rfl⟩
  obtain ⟨h, p, hrun, hcheck⟩ := System.exists_run_of_replay hstart
    [.submit 0 10, .submit 1 11, .pollWorker 0, .pollWorker 1, .tune 1, .submit 2 12,
      .complete 0 5, .resume 2, .complete 1 6, .resume 2, .pollWorker 1]
    (fun h p => p.capacity.isSome &&
      match h.drop 4 with
      | o :: post => decide (Shrinks o) &&
        post.all fun o' => decide (o'.before.cap ≤ o'.before.running)
      | [] => false) (by decide)
  obtain ⟨hbounded, hcheck⟩ := Bool.and_eq_true_iff.1 hcheck
  split at hcheck
  · rename_i o post heq
    simp only [Bool.and_eq_true, decide_eq_true_eq, List.all_eq_true] at hcheck
    obtain ⟨hshrinks, hfull⟩ := hcheck
    have hsplit : h = h.take 4 ++ o :: post := heq ▸ (List.take_append_drop 4 h).symm
    obtain ⟨-, -, hfalls, hslots⟩ := capacity_of_run hrun hbounded
    exact ⟨h, p, hrun, hbounded, ⟨h.take 4, o, post, hsplit, hshrinks, hfull,
      hfalls _ o post hsplit hshrinks hfull⟩, hslots⟩
  · contradiction

end Pool

end Overseer
