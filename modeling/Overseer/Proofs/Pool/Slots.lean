import Overseer.Proofs.Pool.Steps

/-!
# Slots and workers

The slot of a worker is taken by the caller that creates it, and given back by the worker's own
task, whichever way that ends: after its unit, on being told to exit, in a panic, or dropped while
it runs or waits. Only a worker that is dropped before its first turn has nothing that gives its
slot back (`vanishes`). So as long as the pool is there, the slots taken are those of the workers
that exist and of those that have vanished (`slots_of_run`). A pool that loses its runtime between
the creation of a worker and the first turn of that worker is smaller from then on. `slot_is_lost`
is a run in which a pool for one worker has none, and no room for another.
-/

namespace Overseer

variable {υ : Type}

/-- Has the worker not had a turn yet? -/
def Worker.isSpawned (x : Worker υ) : Bool :=
  match x.phase with
  | .spawned _ => true
  | _ => false

theorem Worker.isSpawned_iff {x : Worker υ} : x.isSpawned = true ↔ ∃ u, x.phase = .spawned u := by
  unfold isSpawned
  cases x.phase <;> simp

namespace Floor

variable {f f' : Floor υ} {t : Traffic υ}

theorem Attempt.slots {c : CallerId} {u : υ} {r : Submission} (h : f.Attempt c u r f') :
    f'.running + f.workers.length = f.running + f'.workers.length := by
  cases h with
  | refuses e _ => rfl
  | waits _ => rfl
  | hands _ _ => simp [tell]
  | hires _ _ =>
    simp only [hire, List.length_append, List.length_singleton]
    omega

/-- One worker goes. -/
theorem Tidy.length_without (hf : f.Tidy) {x : Worker υ} (hx : x ∈ f.workers) (n : Nat) :
    (f.without x.id n).workers.length + 1 = f.workers.length := by
  have hids : (f.without x.id n).workers.map (·.id) = (f.workers.map (·.id)).erase x.id := by
    rw [hf.nodup.erase_eq_filter, List.filter_map]
    rfl
  have hlength := congrArg List.length hids
  rw [List.length_erase_of_mem (List.mem_map_of_mem hx), List.length_map, List.length_map]
    at hlength
  have hpos := List.length_pos_of_mem hx
  omega

/-- As many slots are taken as workers are created, and as many given back as workers go, unless
one goes with a unit that it has not started. -/
theorem Step.slots (h : f.Step t f') (hf : f.Tidy) (hd : f.dropped = false) (hlost : t.lost = []) :
    f'.running + f.workers.length = f.running + f'.workers.length := by
  cases h with
  | rests => rfl
  | submits h => exact h.slots
  | resumes _ h => exact h.slots
  | withdraws _ => rfl
  | starts _ _ => simp [setPhase]
  | joins _ _ => simp [setPhase]
  | @leaves x n hx hn =>
    have hone := hf.length_without hx n
    have hslots := hf.slots
    have hrunning : (f.without x.id n).running = n := rfl
    rcases hn with ⟨-, u, hphase⟩ | hn
    · simp [Worker.unstarted, hphase] at hlost
    · rw [freed, hd, if_neg (by simp)] at hn
      omega
  | dismisses _ _ => simp [tell]
  | resizes _ => rfl

/-- The last handle is gone for good. -/
theorem Step.dropped (h : f.Step t f') (hd : f'.dropped = false) : f.dropped = false := by
  cases h with
  | submits h => cases h <;> exact hd
  | resumes _ h => cases h <;> exact hd
  | dismisses hkept _ =>
    cases hf : f.dropped with
    | false => rfl
    | true => exact (hkept hf).symm.trans hd
  | _ => exact hd

end Floor

namespace Pool

variable {p : Pool υ} {h : List (Occurrence (Pool υ) (PoolEvent υ))} {e : PoolEvent υ}

/-- Does the event drop a worker that has not had a turn yet? -/
def vanishes (o : Occurrence (Pool υ) (PoolEvent υ)) : Bool :=
  (o.event.killed?.bind o.before.worker?).any (·.isSpawned)

@[simp] theorem vanishes_killWorker (p : Pool υ) (w : WorkerId) :
    vanishes ⟨p, .killWorker w⟩ = (p.worker? w).any (·.isSpawned) := rfl

theorem vanishes_eq_false {o : Occurrence (Pool υ) (PoolEvent υ)}
    (hkept : ∀ w, o.event ≠ .killWorker w) : vanishes o = false := by
  obtain ⟨p, e⟩ := o
  cases e with
  | killWorker w => exact absurd rfl (hkept w)
  | _ => rfl

/-- As long as no worker is dropped, none vanishes. -/
theorem countP_vanishes (hkept : ∀ o ∈ h, ∀ w, o.event ≠ .killWorker w) :
    h.countP vanishes = 0 :=
  List.countP_eq_zero.2 fun o ho => by simp [vanishes_eq_false (hkept o ho)]

theorem slots_killWorker (ht : p.floor.Tidy) (hd : p.dropped = false) (w : WorkerId) :
    (p.killWorker w).running + p.workers.length = p.running + (p.killWorker w).workers.length +
      (vanishes ⟨p, .killWorker w⟩).toNat := by
  cases hw : p.worker? w with
  | none => simp [killWorker, hw]
  | some x =>
    obtain ⟨hx, rfl⟩ := mem_of_worker? hw
    have hx : x ∈ p.floor.workers := hx
    have hslots : p.workers.length ≤ p.running := ht.slots
    have hone : ∀ n, (p.floor.without x.id n).workers.length + 1 = p.workers.length := fun n =>
      ht.length_without hx n
    have hgone : ∀ {q : Pool υ} {n : Nat}, q.floor = p.floor.without x.id n →
        q.running = n ∧ q.workers.length + 1 = p.workers.length := by
      intro q n hq
      have hworkers : q.workers = (p.floor.without x.id n).workers := congrArg Floor.workers hq
      exact ⟨congrArg Floor.running hq, hworkers ▸ hone n⟩
    cases hspawned : x.isSpawned with
    | true =>
      obtain ⟨u, hphase⟩ := Worker.isSpawned_iff.1 hspawned
      have hkill : p.killWorker x.id = p.removeWorker x.id := by simp [killWorker, hw, hphase]
      obtain ⟨hrunning, hworkers⟩ := hgone (floor_removeWorker p x.id)
      have hrunning : (p.removeWorker x.id).running = p.running := hrunning
      simp only [hkill, vanishes_killWorker, hw, Option.any_some, hspawned, Bool.toNat_true]
      omega
    | false =>
      have hkill : p.killWorker x.id = (p.removeWorker x.id).freeSlot := by
        cases hphase : x.phase with
        | spawned u => simp [Worker.isSpawned, hphase] at hspawned
        | _ => simp [killWorker, hw, hphase]
      have hfreed : p.floor.freed = p.running - 1 := by simp [Floor.freed, floor, hd]
      obtain ⟨hrunning, hworkers⟩ := hgone (q := (p.removeWorker x.id).freeSlot)
        (n := p.floor.freed) (by rw [floor_freeSlot, floor_removeWorker]; rfl)
      simp only [hkill, vanishes_killWorker, hw, Option.any_some, hspawned, Bool.toNat_false]
      omega

/-- An event takes and gives back as many slots as it changes the number of workers. -/
theorem slots_of_perform (ht : p.floor.Tidy) (hd : p.dropped = false)
    (hall : Pool.allows h p e = true) :
    (p.perform e).1.running + p.workers.length =
      p.running + (p.perform e).1.workers.length + (vanishes ⟨p, e⟩).toNat := by
  by_cases hkill : ∃ w, e = .killWorker w
  · obtain ⟨w, rfl⟩ := hkill
    exact slots_killWorker ht hd w
  · have hkept : ∀ w, e ≠ .killWorker w := fun w he => hkill ⟨w, he⟩
    rw [vanishes_eq_false (o := ⟨p, e⟩) hkept]
    exact (step_of_perform ht hall).slots ht hd (lost_eq_nil hkept)

/-- As long as the pool is there, its slots are taken by the workers that exist and by those that
have vanished. -/
theorem slots_of_run (hrun : (poolSystem υ).Run h p) (hd : p.dropped = false) :
    p.running = p.workers.length + h.countP vanishes := by
  induction hrun with
  | start hs =>
    have hrunning := running_of_start hs
    have hslots := (tidy_of_run (System.Run.start hs)).slots
    simp only [floor] at hslots
    rw [List.countP_nil]
    omega
  | @next h p e hrun hall ih =>
    have ht := tidy_of_run hrun
    have hbefore : p.dropped = false := (step_of_perform ht hall).dropped hd
    have hslots := slots_of_perform ht hbefore hall
    have hnow := ih hbefore
    have hcount : List.countP vanishes (h ++ [⟨p, e⟩]) =
        h.countP vanishes + (vanishes ⟨p, e⟩).toNat := by
      rw [List.countP_append, List.countP_singleton]
      cases vanishes (.mk p e) <;> rfl
    rw [hcount]
    show (p.perform e).1.running = (p.perform e).1.workers.length + _
    omega

/-- Two workers are dropped, one of them while it runs and one before its first turn. The other
two are there. -/
theorem slots_of_run_vanished : ∃ (h : List (Occurrence (Pool Nat) (PoolEvent Nat)))
    (p : Pool Nat), (poolSystem Nat).Run h p ∧ p.dropped = false ∧ p.running = 3 ∧
      h.countP vanishes = 1 ∧ p.running = p.workers.length + h.countP vanishes := by
  have hstart : (poolSystem Nat).starts (Pool.create (some 4) {} 0).collect.2 :=
    ⟨4, {}, 0, _, rfl, rfl⟩
  obtain ⟨h, p, hrun, hcheck⟩ := System.exists_run_of_replay hstart
    [.submit 0 10, .submit 1 11, .submit 2 12, .submit 3 13, .pollWorker 0, .pollWorker 1,
      .complete 1 5, .killWorker 0, .killWorker 2]
    (fun h p => !p.dropped && p.running == 3 && h.countP vanishes == 1) (by decide)
  simp only [Bool.and_eq_true, Bool.not_eq_true', beq_iff_eq] at hcheck
  obtain ⟨⟨hd, hrunning⟩, hcount⟩ := hcheck
  exact ⟨h, p, hrun, hd, hrunning, hcount, slots_of_run hrun hd⟩

/-- A worker is created, and its task is dropped before its first turn. Its slot stays taken. -/
theorem slot_is_lost : ¬ ∀ (h : List (Occurrence (Pool Nat) (PoolEvent Nat))) (p : Pool Nat),
    (poolSystem Nat).Run h p → p.dropped = false → p.running = p.workers.length := by
  intro hclaim
  have hstart : (poolSystem Nat).starts (Pool.create (some 1) {} 0).collect.2 :=
    ⟨1, {}, 0, _, rfl, rfl⟩
  obtain ⟨h, p, hrun, hcheck⟩ := System.exists_run_of_replay hstart
    [.submit 0 10, .killWorker 0]
    (fun _ p => !p.dropped && p.running != p.workers.length) (by decide)
  simp only [Bool.and_eq_true, Bool.not_eq_true', bne_iff_ne] at hcheck
  exact hcheck.2 (hclaim h p hrun hcheck.1)

end Pool

end Overseer
