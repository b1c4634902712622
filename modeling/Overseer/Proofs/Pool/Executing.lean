import Overseer.Proofs.Pool.Units

/-!
# Units run to their end

A worker that has started a unit runs nothing else until the unit returns or panics. Only a task
that is dropped takes a running unit with it. So what was started is what workers execute at the
moment, with what has come to its end and what was cut off (`starts_of_run`).
-/

namespace Overseer

variable {υ : Type}

/-- The unit that a worker runs, with the worker. -/
def Worker.job (x : Worker υ) : List (WorkerId × υ) :=
  match x.phase with
  | .busy u => [(x.id, u)]
  | _ => []

namespace Floor

variable {f f' : Floor υ}

/-- What workers run. -/
def executing (f : Floor υ) : List (WorkerId × υ) := f.workers.flatMap Worker.job

@[simp] theorem executing_tell (f : Floor υ) (ws : List WorkerId) (m : Message υ) :
    (f.tell ws m).executing = f.executing := by
  simp only [executing, tell, List.flatMap_map]
  refine List.flatMap_congr fun x _ => ?_
  split <;> rfl

@[simp] theorem executing_hire (f : Floor υ) (u : υ) : (f.hire u).executing = f.executing := by
  simp only [executing, hire, List.flatMap_append, List.flatMap_singleton]
  exact List.append_nil _

theorem executing_without (hf : f.Tidy) {x : Worker υ} (hx : x ∈ f.workers) (n : Nat) :
    f.executing.Perm (x.job ++ (f.without x.id n).executing) :=
  hf.split hx Worker.job

theorem executing_setPhase (hf : f.Tidy) {x : Worker υ} (hx : x ∈ f.workers)
    (phase : WorkerPhase υ) (inbox : List (Message υ)) :
    (x.job ++ (f.setPhase x.id phase inbox).executing).Perm
      (({ x with phase := phase, inbox := inbox } : Worker υ).job ++ f.executing) := by
  have hmap := hf.split_map hx (m := fun y =>
    if y.id == x.id then { y with phase := phase, inbox := inbox } else y)
    (fun y hne => by rw [if_neg (by simpa using hne)]) Worker.job
  simp only [beq_self_eq_true, if_true] at hmap
  refine (hmap.append_left _).trans ?_
  rw [← List.append_assoc]
  refine (List.perm_append_comm.append_right _).trans ?_
  rw [List.append_assoc]
  exact (hf.split hx Worker.job).symm.append_left _

theorem Attempt.executing {c : CallerId} {u : υ} {r : Submission} (h : f.Attempt c u r f') :
    f'.executing = f.executing := by
  cases h with
  | refuses e _ => rfl
  | waits _ => rfl
  | hands _ _ => rw [executing_tell]; rfl
  | hires _ _ => rw [executing_hire]; rfl

theorem Sheds.executing (h : f.Sheds f') : f'.executing = f.executing := by
  obtain ⟨ws, rest, -, rfl⟩ := h
  rw [executing_tell]
  rfl

end Floor

namespace Pool

variable {p : Pool υ} {h : List (Occurrence (Pool υ) (PoolEvent υ))} {e : PoolEvent υ}

/-- What has come to its end with an event. -/
def finished (p : Pool υ) : PoolEvent υ → List (WorkerId × υ)
  | .complete w _ => (p.worker? w).toList.flatMap Worker.job
  | .crash w _ => (p.worker? w).toList.flatMap Worker.job
  | _ => []

/-- What was cut off by an event. -/
def cutOff (p : Pool υ) : PoolEvent υ → List (WorkerId × υ)
  | .killWorker w => (p.worker? w).toList.flatMap Worker.job
  | _ => []

/-- A worker that runs a unit, and that it has come to its end. -/
theorem finished_of_isBusy {w : WorkerId} (hbusy : p.isBusy w = true) :
    ∃ x ∈ p.workers, x.id = w ∧ (p.worker? w).toList.flatMap Worker.job = x.job := by
  obtain ⟨x, hw, -⟩ := (Option.any_eq_true _ _).1 hbusy
  obtain ⟨hx, hid⟩ := mem_of_worker? hw
  exact ⟨x, hx, hid, by simp [hw]⟩

/-- What is started is executed until it comes to its end, or is cut off. -/
theorem executing_perform (ht : p.floor.Tidy) (hall : Pool.allows h p e = true) :
    ((p.perform e).1.floor.executing ++ p.finished e ++ p.cutOff e).Perm
      (p.floor.executing ++ (p.traffic e).started) := by
  have hsame : ∀ {f : Floor υ}, f.executing = p.floor.executing →
      (f.executing ++ [] ++ []).Perm (p.floor.executing ++ []) := fun hf => by
    rw [hf, List.append_nil]
  have hleaves : ∀ {x : Worker υ}, x ∈ p.workers → ∀ n,
      ((p.floor.without x.id n).executing ++ x.job).Perm p.floor.executing := fun hx n =>
    List.perm_append_comm.trans (p.floor.executing_without ht hx n).symm
  cases e with
  | submit c u =>
    have hnothing : (p.traffic (.submit c u)).started = [] := by simp [traffic]
    rw [hnothing]
    exact hsame (floor_attempt p c u).executing
  | resume c =>
    have hnothing : (p.traffic (.resume c)).started = [] := by
      simp only [traffic]
      split <;> simp
    rw [hnothing]
    exact hsame (keeps_resume (P := fun q => q.floor.executing = p.floor.executing) rfl c
      fun u => (floor_attempt (p.unpark c) c u).executing)
  | abandon c =>
    refine hsame ?_
    rw [perform, floor_abandon]
    rfl
  | pollWorker w =>
    rcases pollWorker_cases ht w with ⟨hfloor, htraffic⟩ |
      ⟨x, u, inbox, hx, -, hunit, hfloor, htraffic⟩ | ⟨x, hx, -, hphase, -, hfloor, htraffic⟩
    · rw [htraffic]
      exact hsame (congrArg Floor.executing hfloor)
    · have hidle : x.job = [] := by
        rcases hunit with ⟨hphase, -⟩ | ⟨hphase, -⟩ <;> simp [Worker.job, hphase]
      have hmore := p.floor.executing_setPhase ht hx (.busy u) inbox
      rw [hidle, List.nil_append] at hmore
      rw [htraffic]
      simp only [perform, finished, cutOff, List.append_nil, hfloor]
      exact hmore.trans List.perm_append_comm
    · have hleft := hleaves hx p.floor.freed
      rw [show x.job = [] by simp [Worker.job, hphase]] at hleft
      rw [htraffic]
      simp only [perform, finished, cutOff, List.append_nil, hfloor]
      simpa using hleft
  | complete w now =>
    obtain ⟨x, hx, rfl, hjob⟩ := finished_of_isBusy hall
    simp only [perform, finished, cutOff, traffic, hjob, List.append_nil]
    rcases floor_complete p x.id now with hexits | hjoins
    · rw [hexits]
      exact hleaves hx _
    · rw [hjoins]
      have hless := p.floor.executing_setPhase ht hx .parked []
      exact List.perm_append_comm.trans hless
  | crash w payload =>
    obtain ⟨x, hx, rfl, hjob⟩ := finished_of_isBusy hall
    simp only [perform, finished, cutOff, traffic, hjob, List.append_nil, floor_crash]
    exact hleaves hx _
  | killWorker w =>
    simp only [perform, finished, cutOff, traffic, List.append_nil]
    cases hw : p.worker? w with
    | none => simp [killWorker, hw]
    | some x =>
      obtain ⟨n, -, hfloor⟩ := floor_killWorker hw
      obtain ⟨hx, rfl⟩ := mem_of_worker? hw
      rw [hfloor]
      simpa using hleaves hx n
  | pollScavenger s now => exact hsame (sheds_pollScavenger ht s now).executing
  | killScavenger s => exact hsame rfl
  | tune size =>
    refine hsame ?_
    rcases floor_tune p size with hfloor | ⟨-, n, hfloor⟩
    · rw [perform, hfloor]
    · rw [perform, hfloor]
      rfl
  | release => exact hsame (sheds_release ht).executing
  | beginRelease now timeout => exact hsame (sheds_beginRelease ht now timeout).executing
  | reboot now => exact hsame (congrArg Floor.executing (floor_reboot p now))
  | drop => exact hsame (sheds_drop ht).executing

end Pool

section Ledgers

variable (h : List (Occurrence (Pool υ) (PoolEvent υ)))

/-- Which worker has come to the end of which unit. -/
def finishes : List (WorkerId × υ) := h.flatMap fun o => o.before.finished o.event

/-- Which worker was dropped with which unit that it ran. -/
def cutOffs : List (WorkerId × υ) := h.flatMap fun o => o.before.cutOff o.event

end Ledgers

namespace Pool

variable {p : Pool υ} {h : List (Occurrence (Pool υ) (PoolEvent υ))}

/-- What was started is executed, or has come to its end, or was cut off. -/
theorem starts_of_run (hrun : (poolSystem υ).Run h p) :
    (p.floor.executing ++ finishes h ++ cutOffs h).Perm (starts h) := by
  classical
  induction hrun with
  | @start p hs =>
    have hnobody : p.floor.workers = [] := workers_of_start hs
    simp [finishes, cutOffs, starts, traffics, Floor.executing, hnobody]
  | @next h p e hrun hall ih =>
    have hstep : (((poolSystem υ).happen p e).1.floor.executing ++ p.finished e ++
        p.cutOff e).Perm (p.floor.executing ++ (p.traffic e).started) :=
      executing_perform (tidy_of_run hrun) hall
    refine List.perm_iff_count.2 fun x => ?_
    have hbefore := ih.count_eq x
    have hnow := hstep.count_eq x
    simp only [finishes, cutOffs, starts, ledger_append, List.flatMap_append,
      List.flatMap_singleton, List.count_append] at hbefore hnow ⊢
    omega

/-- Only a task that is dropped takes a running unit with it. -/
theorem cutOffs_eq_nil (hkept : ∀ o ∈ h, ∀ w, o.event ≠ .killWorker w) : cutOffs h = [] := by
  refine List.flatMap_eq_nil_iff.2 fun o ho => ?_
  unfold cutOff
  split
  · rename_i w he
    exact absurd he (hkept o ho w)
  · rfl

end Pool

end Overseer
