import Overseer.Proofs.Pool.Capacity
import Overseer.Proofs.Pool.Executing
import Overseer.Proofs.Pool.Slots

/-!
# Units in progress against the capacity

A unit is in progress from when it is handed to a worker until it comes to its end, and each worker
has one at most. A new worker is created only where a slot is free. An idle worker is reused without
a look at the capacity. As long as no more slots are taken than the capacity allows that makes no
difference, because the idle worker itself has one of them and nothing in progress. After the
capacity was made smaller there may be more, and then a unit may be handed over though as many as
the new capacity allows are in progress already (`surplus_is_reused`).

`limit_of_run` says that this is the only way, and how far it goes: nobody joins the list of idle
workers of a pool that is over its capacity, so every unit that is handed over uses up one of those
that were on it.
-/

namespace Overseer

variable {υ : Type}

namespace Floor

variable {f f' : Floor υ} {t : Traffic υ}

/-- The number of units that are executed, or were handed to a worker that has not started them. -/
def inProgress (f : Floor υ) : Nat := f.executing.length + f.handed.length

theorem inProgress_eq (f : Floor υ) : f.inProgress = (f.workers.flatMap Worker.held).length := by
  have hheld : ∀ x : Worker υ, x.held.length = x.job.length + x.unstarted.length := by
    intro x
    unfold Worker.held Worker.job
    cases x.phase <;> simp [Nat.add_comm]
  simp only [inProgress, executing, handed, List.length_flatMap, hheld]
  induction f.workers with
  | nil => rfl
  | cons x xs ih =>
    simp only [List.map_cons, List.sum_cons]
    omega

theorem length_flatMap_held_le {xs : List (Worker υ)} (h : ∀ x ∈ xs, x.held.length ≤ 1) :
    (xs.flatMap Worker.held).length ≤ xs.length := by
  induction xs with
  | nil => exact Nat.le_refl _
  | cons x xs ih =>
    have hfirst := h x List.mem_cons_self
    have hrest := ih fun y hy => h y (List.mem_cons_of_mem _ hy)
    simp only [List.flatMap_cons, List.length_append, List.length_cons]
    omega

/-- Each worker has one unit at most. -/
theorem Tidy.inProgress_le (hf : f.Tidy) : f.inProgress ≤ f.workers.length := by
  rw [inProgress_eq]
  exact length_flatMap_held_le fun x hx => hf.length_held_le hx

/-- A worker that is listed as idle has none. -/
theorem Tidy.inProgress_lt (hf : f.Tidy) {x : Worker υ} (hx : x ∈ f.workers)
    (hidle : x.id ∈ f.idle) : f.inProgress < f.workers.length := by
  obtain ⟨hphase, hinbox⟩ := hf.waits x hx hidle
  have hnothing : x.held = [] := by simp [Worker.held, Worker.unstarted, hphase, hinbox, units]
  have hone : (f.workers.filter (·.id != x.id)).length + 1 = f.workers.length :=
    hf.length_without hx f.running
  have hothers : ((f.workers.filter (·.id != x.id)).flatMap Worker.held).length ≤
      (f.workers.filter (·.id != x.id)).length :=
    length_flatMap_held_le fun y hy => hf.length_held_le (List.mem_filter.1 hy).1
  have hsplit := (hf.split hx Worker.held).length_eq
  rw [hnothing, List.nil_append] at hsplit
  rw [inProgress_eq]
  omega

/-- Whoever accepts a unit was listed as idle and has nothing in progress, or is new and takes a
slot that is free. -/
theorem Attempt.serves {c : CallerId} {u : υ} {r : Submission} (h : f.Attempt c u r f')
    (hf : f.Tidy) (ha : (Traffic.answered u r).accepted ≠ []) :
    (f'.running = f.running ∧ f.inProgress < f.workers.length) ∨
      f'.running = f.running + 1 ∧ ∀ n, f.capacity = some n → f.running < n := by
  cases h with
  | refuses e _ => exact absurd rfl ha
  | waits _ => exact absurd rfl ha
  | hands hrest hw =>
    obtain ⟨x, hx, rfl⟩ := List.mem_map.1 hw
    exact .inl ⟨rfl, hf.inProgress_lt hx (hrest.subset List.mem_cons_self)⟩
  | hires _ hroom => exact .inr ⟨rfl, hroom⟩

theorem Step.serves (h : f.Step t f') (hf : f.Tidy) (ha : t.accepted ≠ []) :
    (f'.running = f.running ∧ f.inProgress < f.workers.length) ∨
      f'.running = f.running + 1 ∧ ∀ n, f.capacity = some n → f.running < n := by
  cases h with
  | submits h => exact h.serves hf ha
  | @resumes x _ _ _ h =>
    have hforgotten : (f.forget x.id).Tidy := { hf with }
    exact h.serves hforgotten ha
  | _ => exact absurd rfl ha

/-- Every slot is taken. -/
def IsFull (f : Floor υ) : Prop := ∃ n, f.capacity = some n ∧ n ≤ f.running

/-- Without a free slot, an idle worker is used up for a unit that is accepted. -/
theorem Attempt.idle {c : CallerId} {u : υ} {r : Submission} (h : f.Attempt c u r f')
    (hfull : f.IsFull) :
    f'.idle.length + (Traffic.answered u r).accepted.length ≤ f.idle.length := by
  cases h with
  | refuses e hrest => exact hrest.length_le
  | waits hrest => exact hrest.length_le
  | hands hrest _ => exact hrest.length_le
  | hires _ hroom =>
    obtain ⟨n, hn, hle⟩ := hfull
    exact absurd (hroom n hn) (Nat.not_lt.2 hle)

theorem Sheds.idle (h : f.Sheds f') : f'.idle.length ≤ f.idle.length := by
  obtain ⟨ws, rest, hall, rfl⟩ := h
  rw [← hall, List.length_append]
  exact Nat.le_add_left _ _

end Floor

namespace Pool

variable {p : Pool υ} {h : List (Occurrence (Pool υ) (PoolEvent υ))} {e : PoolEvent υ}

def inProgress (p : Pool υ) : Nat := p.floor.inProgress

theorem isOverCapacity_iff :
    p.isOverCapacity = true ↔ ∃ n, p.capacity = some n ∧ n < p.running := by
  unfold isOverCapacity
  cases p.capacity <;> simp

theorem isFull_of_isOverCapacity (hover : p.isOverCapacity = true) : p.floor.IsFull := by
  obtain ⟨n, hn, hlt⟩ := isOverCapacity_iff.1 hover
  exact ⟨n, hn, Nat.le_of_lt hlt⟩

/-- A worker that has ended its unit exits if the pool is over its capacity. -/
theorem floor_complete_of_isOverCapacity (hover : p.isOverCapacity = true) (w : WorkerId)
    (now : Nat) : (p.complete w now).floor = p.floor.without w p.floor.freed := by
  unfold complete
  rw [hover, Bool.true_or, if_pos rfl]
  split
  · exact floor_exit p w
  · rw [floor_exit, floor_notifyAll]

/-- Nobody joins the list of idle workers of a pool that is over its capacity, and every unit that
it accepts uses up one of them. -/
theorem idle_le_of_perform (ht : p.floor.Tidy) (hover : p.isOverCapacity = true)
    (e : PoolEvent υ) : (p.perform e).1.floor.idle.length + (p.traffic e).accepted.length ≤
      p.floor.idle.length := by
  have hfull := isFull_of_isOverCapacity hover
  have hsame : ∀ {q : Pool υ} {f : Floor υ}, q.floor = f → f.idle = p.floor.idle →
      q.floor.idle.length + 0 ≤ p.floor.idle.length :=
    fun hfloor hidle => by rw [hfloor, hidle]; exact Nat.le_refl _
  cases e with
  | submit c u => exact (floor_attempt p c u).idle hfull
  | resume c =>
    rcases resume_cases p c with ⟨hrests, -⟩ | ⟨x, hc, -, htries⟩
    · have hnothing : (p.traffic (.resume c)).accepted = [] := by
        simp only [traffic, hrests]
        split <;> rfl
      rw [perform, hrests, hnothing]
      exact hsame rfl rfl
    · simp only [perform, traffic, hc, htries]
      exact (floor_attempt (p.unpark c) c x.unit).idle hfull
  | abandon c => exact hsame (floor_abandon p c) rfl
  | pollWorker w =>
    rcases pollWorker_cases ht w with ⟨hfloor, htraffic⟩ | ⟨x, u, inbox, -, -, -, hfloor, htraffic⟩
      | ⟨x, -, -, -, -, hfloor, htraffic⟩
    all_goals
      rw [htraffic]
      exact hsame hfloor rfl
  | complete w now =>
    exact hsame (floor_complete_of_isOverCapacity hover w now) rfl
  | crash w payload => exact hsame (floor_crash p w payload) rfl
  | killWorker w =>
    cases hw : p.worker? w with
    | none => exact hsame (by simp [perform, killWorker, hw]) rfl
    | some x =>
      obtain ⟨n, -, hfloor⟩ := floor_killWorker hw
      exact hsame hfloor rfl
  | pollScavenger s now => exact (sheds_pollScavenger ht s now).idle
  | killScavenger s => exact hsame rfl rfl
  | tune size =>
    rcases floor_tune p size with hfloor | ⟨-, n, hfloor⟩
    all_goals exact hsame hfloor rfl
  | release => exact (sheds_release ht).idle
  | beginRelease now timeout => exact (sheds_beginRelease ht now timeout).idle
  | reboot now => exact hsame (floor_reboot p now) rfl
  | drop => exact (sheds_drop ht).idle

/-! ## Runs -/

/-- A unit is handed to a worker. -/
def Accepts (o : Occurrence (Pool υ) (PoolEvent υ)) : Prop :=
  (o.before.traffic o.event).accepted ≠ []

/-- Where a unit is handed over there is room for it, or the pool is over its capacity and an idle
worker is reused. -/
theorem limit_of_mem (hrun : (poolSystem υ).Run h p) (hbounded : p.capacity.isSome = true)
    {o : Occurrence (Pool υ) (PoolEvent υ)} (ho : o ∈ h) (ha : Accepts o) :
    (o.before.inProgress : Int) < o.before.cap ∨
      o.before.isOverCapacity = true ∧ o.before.inProgress < o.before.running ∧
        ((poolSystem υ).after o).running = o.before.running := by
  obtain ⟨ht, hstep⟩ := step_of_mem hrun ho
  obtain ⟨n, hn⟩ := Option.isSome_iff_exists.1 (bounded_of_mem hrun hbounded o ho)
  have hslots : o.before.floor.workers.length ≤ o.before.running := ht.slots
  have hworkers : o.before.inProgress ≤ o.before.floor.workers.length := ht.inProgress_le
  rcases hstep.serves ht ha with ⟨hsame, hidle⟩ | ⟨-, hroom⟩
  · have hless : o.before.inProgress < o.before.running := Nat.lt_of_lt_of_le hidle hslots
    rcases Nat.lt_or_ge n o.before.running with hover | hle
    · exact .inr ⟨isOverCapacity_iff.2 ⟨n, hn, hover⟩, hless, hsame⟩
    · rw [cap_of_capacity hn]
      omega
  · have hfree : o.before.running < n := hroom n hn
    rw [cap_of_capacity hn]
    omega

/-- As long as a pool is over its capacity, no more units are handed over than idle workers were
listed. -/
theorem acceptances_le_idle (hrun : (poolSystem υ).Run h p)
    {pre post : List (Occurrence (Pool υ) (PoolEvent υ))} {o : Occurrence (Pool υ) (PoolEvent υ)}
    (heq : h = pre ++ o :: post) (hover : ∀ o' ∈ post, o'.before.isOverCapacity = true) :
    (acceptances post).length + p.idle.size ≤ ((poolSystem υ).after o).idle.size := by
  have hsize : ∀ q : Pool υ, q.idle.size = q.floor.idle.length := fun q => by
    simp [floor, IdleList.listed, IdleList.size]
  rw [hsize, hsize]
  refine hrun.since (P := fun post p => (∀ o' ∈ post, o'.before.isOverCapacity = true) →
    (acceptances post).length + p.floor.idle.length ≤
      ((poolSystem υ).after o).floor.idle.length)
    (fun _ => by simp [acceptances, traffics]) (fun post p e hrun hall ih hover => ?_) heq hover
  have hbefore := ih fun o' ho' => hover o' (List.mem_append_left _ ho')
  have hnow : (p.perform e).1.floor.idle.length + (p.traffic e).accepted.length ≤
      p.floor.idle.length := idle_le_of_perform (tidy_of_run hrun) (hover ⟨p, e⟩ (by simp)) e
  have hlater : ((poolSystem υ).happen p e).1.floor.idle = (p.perform e).1.floor.idle := rfl
  rw [hlater, acceptances, ledger_append, List.length_append]
  rw [acceptances] at hbefore
  omega

/-- Whatever has happened to a bounded pool: a unit was handed over only while fewer units than the
capacity were in progress, or else by reusing an idle worker of a pool that was over its capacity,
with fewer units in progress than workers there were. Without a smaller capacity it was always the
former. From any event on, for as long as the pool was over its capacity, no more units were handed
over than idle workers were listed then. -/
theorem limit_of_run (hrun : (poolSystem υ).Run h p) (hbounded : p.capacity.isSome = true) :
    (∀ o ∈ h, Accepts o → (o.before.inProgress : Int) < o.before.cap ∨
      o.before.isOverCapacity = true ∧ o.before.inProgress < o.before.running ∧
        ((poolSystem υ).after o).running = o.before.running) ∧
    ((∀ o ∈ h, ¬Shrinks o) → ∀ o ∈ h, Accepts o → (o.before.inProgress : Int) < o.before.cap) ∧
    ∀ pre o post, h = pre ++ o :: post → (∀ o' ∈ post, o'.before.isOverCapacity = true) →
      (acceptances post).length + p.idle.size ≤ ((poolSystem υ).after o).idle.size := by
  refine ⟨fun o ho ha => limit_of_mem hrun hbounded ho ha, fun hgrown o ho ha => ?_,
    fun pre o post heq hover => acceptances_le_idle hrun heq hover⟩
  refine (limit_of_mem hrun hbounded ho ha).resolve_right fun hover => ?_
  obtain ⟨pre, post, heq⟩ := List.append_of_mem ho
  obtain ⟨hpre, -, -⟩ := hrun.split heq
  have hfits := running_le_cap hpre (bounded_of_mem hrun hbounded o ho)
    fun o' ho' => hgrown o' (heq ▸ List.mem_append_left _ ho')
  obtain ⟨n, hn, hlt⟩ := isOverCapacity_iff.1 hover.1
  rw [cap_of_capacity hn] at hfits
  omega

/-- Three workers are idle when the capacity drops to one. Two of them are reused, and a third unit
is handed over only after one of the first two has ended and its worker has gone. -/
theorem limit_of_run_shrunk : ∃ (h pre post : List (Occurrence (Pool Nat) (PoolEvent Nat)))
    (o : Occurrence (Pool Nat) (PoolEvent Nat)) (p : Pool Nat), (poolSystem Nat).Run h p ∧
      p.capacity.isSome = true ∧ h = pre ++ o :: post ∧ Shrinks o ∧
      (∀ o' ∈ post, o'.before.isOverCapacity = true) ∧ (acceptances post).length = 2 ∧
      (acceptances post).length + p.idle.size ≤ ((poolSystem Nat).after o).idle.size ∧
      ∀ o ∈ h, Accepts o → (o.before.inProgress : Int) < o.before.cap ∨
        o.before.isOverCapacity = true ∧ o.before.inProgress < o.before.running ∧
          ((poolSystem Nat).after o).running = o.before.running := by
  have hstart : (poolSystem Nat).starts (Pool.create (some 3) {} 0).collect.2 :=
    ⟨3, {}, 0, _, rfl, rfl⟩
  obtain ⟨h, p, hrun, hcheck⟩ := System.exists_run_of_replay hstart
    [.submit 0 10, .submit 1 11, .submit 2 12, .pollWorker 0, .pollWorker 1, .pollWorker 2,
      .complete 0 1, .complete 1 1, .complete 2 1, .tune 1, .submit 3 13, .submit 4 14,
      .pollWorker 2, .complete 2 2]
    (fun h p => p.capacity.isSome &&
      match h.drop 9 with
      | o :: post => decide (Shrinks o) && (post.all fun o' => o'.before.isOverCapacity) &&
        decide ((acceptances post).length = 2)
      | [] => false) (by decide)
  obtain ⟨hbounded, hcheck⟩ := Bool.and_eq_true_iff.1 hcheck
  split at hcheck
  · rename_i o post hdrop
    simp only [Bool.and_eq_true, decide_eq_true_eq, List.all_eq_true] at hcheck
    obtain ⟨⟨hshrinks, hover⟩, htwo⟩ := hcheck
    have heq : h = h.take 9 ++ o :: post := hdrop ▸ (List.take_append_drop 9 h).symm
    obtain ⟨hlimit, -, hused⟩ := limit_of_run hrun hbounded
    exact ⟨h, h.take 9, post, o, p, hrun, hbounded, heq, hshrinks, hover, htwo,
      hused _ o post heq hover, hlimit⟩
  · contradiction

/-- Two workers are idle when the capacity drops to one. The first is reused, and so is the second
while the first has its unit. -/
theorem surplus_is_reused : ¬ ∀ (h : List (Occurrence (Pool Nat) (PoolEvent Nat))) (p : Pool Nat),
    (poolSystem Nat).Run h p → p.capacity.isSome = true →
      ∀ o ∈ h, Accepts o → (o.before.inProgress : Int) < o.before.cap := by
  intro hclaim
  have hstart : (poolSystem Nat).starts (Pool.create (some 2) {} 0).collect.2 :=
    ⟨2, {}, 0, _, rfl, rfl⟩
  obtain ⟨h, p, hrun, hcheck⟩ := System.exists_run_of_replay hstart
    [.submit 0 10, .submit 1 11, .pollWorker 0, .pollWorker 1, .complete 0 1, .complete 1 1,
      .tune 1, .submit 2 12, .submit 3 13]
    (fun h p => p.capacity.isSome && h.any fun o =>
      decide ((o.before.traffic o.event).accepted ≠ []) &&
        decide (o.before.cap ≤ (o.before.inProgress : Int))) (by decide)
  simp only [Bool.and_eq_true, decide_eq_true_eq, List.any_eq_true] at hcheck
  obtain ⟨hbounded, o, ho, ha, hfull⟩ := hcheck
  have hless := hclaim h p hrun hbounded o ho ha
  omega

end Pool

end Overseer
