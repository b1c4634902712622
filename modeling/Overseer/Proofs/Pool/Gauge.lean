import Overseer.Proofs.Pool.Closed
import Overseer.Proofs.Pool.Facade

/-!
# The gauge of running workers

The gauge of a pool goes up and down with its slots, whoever takes and frees them, and shows how
many of them are taken at every moment (`gauge_of_run`). Slots and workers part ways in two cases,
after which a slot stays taken that no worker has: if the task of a worker is dropped before its
first turn, and if it ends in whatever way once the pool is gone, as it finds no pool to give the
slot back to (`strands`). So the gauge is ahead of the workers that exist by as many workers as
were stranded (`standing_of_run`).

A pool that is gone lists nobody as idle (`deserted_of_run`), so every worker that it has when
nobody can move runs a unit (`workers_of_still`).
-/

namespace Overseer

variable {υ : Type}

namespace Pool

variable {p q : Pool υ} {h : List (Occurrence (Pool υ) (PoolEvent υ))} {e : PoolEvent υ}

/-! ## The gauge and the slots -/

/-- By how much the gauge is ahead of the slots that are taken. -/
def drift (p : Pool υ) : Int := p.tally.running - p.running

theorem drift_of_facade (hq : q.facade = p.facade) : q.drift = p.drift := by
  have hdrift : q.facade.drift = p.facade.drift := congrArg drift hq
  exact hdrift

theorem drift_stopAll (p : Pool υ) (ws : List WorkerId) : (p.stopAll ws).drift = p.drift :=
  drift_of_facade (facade_stopAll p ws)

@[simp] theorem drift_notifyOne (p : Pool υ) : p.notifyOne.drift = p.drift := by
  unfold notifyOne
  dsimp only
  split <;> rfl

@[simp] theorem drift_spawn (p : Pool υ) (u : υ) : (p.spawn u).drift = p.drift := by
  simp only [drift, spawn]
  omega

@[simp] theorem drift_takeScavenger (p : Pool υ) : p.takeScavenger.1.drift = p.drift := by
  unfold takeScavenger
  split <;> rfl

@[simp] theorem drift_startScavenger (p : Pool υ) (now : Nat) :
    (p.startScavenger now).drift = p.drift := by
  unfold startScavenger
  split
  · rfl
  · exact drift_takeScavenger p

/-- A slot that was taken is given back, and the gauge goes down with it. -/
theorem drift_freeSlot (htaken : 0 < p.running) : p.freeSlot.drift = p.drift := by
  unfold freeSlot
  split
  · rfl
  · rw [drift_notifyOne]
    simp only [drift]
    omega

theorem drift_exit (htaken : 0 < p.running) (w : WorkerId) : (p.exit w).drift = p.drift :=
  drift_freeSlot (p := (p.debug "Worker exiting.").removeWorker w) htaken

theorem drift_attempt (p : Pool υ) (c : CallerId) (u : υ) :
    (p.attempt c u).1.drift = p.drift := by
  have hlisted : ∀ (rest : IdleList WorkerId) (dead : List WorkerId),
      (({ p with idle := rest } : Pool υ).discard dead).drift = p.drift := fun rest dead =>
    drift_of_facade (facade_discard _ dead)
  unfold attempt
  split
  · rfl
  · split
    · rename_i dead w rest _
      exact (drift_of_facade (facade_send _ w (.unit u))).trans (hlisted rest dead)
    · rename_i dead rest _
      dsimp only
      split
      · rw [drift_spawn]
        exact hlisted rest dead
      · split
        · exact hlisted rest dead
        · exact hlisted rest dead

theorem drift_complete (htaken : 0 < p.running) (w : WorkerId) (now : Nat) :
    (p.complete w now).drift = p.drift := by
  unfold complete
  split
  · exact drift_exit htaken w
  · split
    · exact drift_exit (p := p.notifyAll) htaken w
    · split
      · exact drift_exit htaken w
      · exact drift_notifyOne _

theorem drift_crash (htaken : 0 < p.running) (w : WorkerId) (payload : Payload) :
    (p.crash w payload).drift = p.drift := by
  have hreported : (p.reportPanic w payload).running = p.running ∧
      (p.reportPanic w payload).drift = p.drift := by
    unfold reportPanic
    dsimp only
    split <;> exact ⟨rfl, rfl⟩
  unfold crash
  split
  · exact drift_exit htaken w
  · exact (drift_exit (hreported.1 ▸ htaken) w).trans hreported.2

theorem drift_purge (p : Pool υ) (now : Nat) : (p.purge now).drift = p.drift := by
  have hwoken : ∀ q : Pool υ,
      (if q.running == 0 || (0 < q.waiting && 0 < q.free) then q.notifyAll else q).drift =
        q.drift := by
    intro q
    split <;> rfl
  unfold purge
  generalize p.idle.expire p.options.expiryMillis now = split
  obtain ⟨expired, idle⟩ := split
  dsimp only
  rw [hwoken]
  split
  · rfl
  · refine (drift_of_facade (facade_foldl (fun q w => ?_) expired _)).trans rfl
    rw [facade_send, facade_debug]

theorem drift_pollScavenger (p : Pool υ) (s : ScavengerId) (now : Nat) :
    (p.pollScavenger s now).1.drift = p.drift := by
  unfold pollScavenger
  split
  · rfl
  · split
    · rfl
    · split
      · rfl
      · split
        · rfl
        · split
          · rfl
          · exact drift_purge _ now

theorem drift_tune (p : Pool υ) (size : Int) : (p.tune size).drift = p.drift := by
  unfold tune
  split
  · rfl
  · split
    · rfl
    · dsimp only
      split
      · rfl
      · split
        · exact drift_notifyOne _
        · rfl

theorem drift_close (p : Pool υ) : p.close.drift = p.drift := by
  unfold close
  split
  · rfl
  · exact drift_stopAll _ p.idle.reset.1

theorem drift_release (p : Pool υ) : p.release.drift = p.drift := by
  have htaken := drift_takeScavenger p
  unfold release
  generalize p.takeScavenger = taken at htaken
  obtain ⟨q, scavenger⟩ := taken
  dsimp only at htaken ⊢
  rw [← htaken]
  split
  · rfl
  · exact drift_close q

theorem drift_beginRelease (p : Pool υ) (now : Nat) (timeout : Duration) :
    (p.beginRelease now timeout).1.drift = p.drift := by
  have htaken := drift_takeScavenger p
  unfold beginRelease
  generalize p.takeScavenger = taken at htaken
  obtain ⟨q, scavenger⟩ := taken
  dsimp only at htaken ⊢
  rw [← htaken]
  split
  · rfl
  · exact drift_close q

theorem drift_reboot (p : Pool υ) (now : Nat) : (p.reboot now).drift = p.drift := by
  unfold reboot
  split
  · exact drift_startScavenger ({ p with closed := false } : Pool υ) now
  · rfl

theorem drift_drop (p : Pool υ) : p.drop.drift = p.drift := by
  have htaken := drift_takeScavenger p
  unfold drop
  generalize p.takeScavenger = taken at htaken
  obtain ⟨q, scavenger⟩ := taken
  dsimp only at htaken ⊢
  rw [← htaken]
  exact drift_stopAll _ q.idle.reset.1

/-- A worker has a slot. -/
theorem Floor.Tidy.running_pos (ht : p.floor.Tidy) {x : Worker υ} (hx : x ∈ p.workers) :
    0 < p.running :=
  Nat.lt_of_lt_of_le (List.length_pos_of_mem hx) ht.slots

theorem drift_pollWorker (ht : p.floor.Tidy) (w : WorkerId) :
    (p.pollWorker w).1.drift = p.drift := by
  unfold pollWorker
  split
  · rfl
  · rename_i x hw
    have htaken := Floor.Tidy.running_pos ht (mem_of_worker? hw).1
    split
    · rfl
    · rfl
    · exact drift_exit htaken w
    · rfl
    · rfl

theorem drift_killWorker (ht : p.floor.Tidy) (w : WorkerId) :
    (p.killWorker w).drift = p.drift := by
  unfold killWorker
  split
  · rfl
  · rename_i x hw
    have htaken := Floor.Tidy.running_pos ht (mem_of_worker? hw).1
    split
    · rfl
    · exact drift_freeSlot (p := p.removeWorker w) htaken

theorem drift_perform (ht : p.floor.Tidy) (hall : Pool.allows h p e = true) :
    (p.perform e).1.drift = p.drift := by
  have hbusy : ∀ w, p.isBusy w = true → 0 < p.running := fun w hw => by
    obtain ⟨x, hx, -⟩ := unstarted_of_isBusy ht hw
    exact Floor.Tidy.running_pos ht hx
  cases e with
  | submit c u => exact drift_attempt p c u
  | resume c =>
    exact keeps_resume (P := fun q => q.drift = p.drift) rfl c fun u =>
      drift_attempt (p.unpark c) c u
  | abandon c =>
    show (p.abandon c).drift = p.drift
    unfold abandon
    split <;> rfl
  | pollWorker w => exact drift_pollWorker ht w
  | complete w now => exact drift_complete (hbusy w hall) w now
  | crash w payload => exact drift_crash (hbusy w hall) w payload
  | killWorker w => exact drift_killWorker ht w
  | pollScavenger s now => exact drift_pollScavenger p s now
  | killScavenger s => rfl
  | tune size => exact drift_tune p size
  | release => exact drift_release p
  | beginRelease now timeout => exact drift_beginRelease p now timeout
  | reboot now => exact drift_reboot p now
  | drop => exact drift_drop p

/-- The gauge shows the slots that are taken. -/
theorem gauge_of_run (hrun : (poolSystem υ).Run h p) : p.tally.running = p.running := by
  have hdrift : p.drift = 0 := by
    induction hrun with
    | start hs =>
      obtain ⟨capacity, options, now, p₀, hnew, rfl⟩ := hs
      obtain ⟨c, rfl⟩ := exists_eq_create hnew
      exact drift_startScavenger _ now
    | @next h p e hrun hall ih => exact (drift_perform (tidy_of_run hrun) hall).trans ih
  unfold drift at hdrift
  omega

/-! ## Workers that are stranded -/

end Pool

/-- Once the pool is gone, no slot is given back. Nobody goes, or one worker goes and the slots
stay as they are. -/
theorem Floor.Step.slots_of_dropped {f f' : Floor υ} {t : Traffic υ} (h : f.Step t f')
    (hf : f.Tidy) (hd : f.dropped = true) :
    f'.running + f.workers.length = f.running + f'.workers.length ∧
      f.workers.length ≤ f'.workers.length ∨
    f'.running = f.running ∧ f'.workers.length + 1 = f.workers.length := by
  have hsame : ∀ {f' : Floor υ}, f'.running = f.running → f'.workers.length = f.workers.length →
      f'.running + f.workers.length = f.running + f'.workers.length ∧
        f.workers.length ≤ f'.workers.length := fun hr hl => by omega
  have hattempt : ∀ {c : CallerId} {u : υ} {r : Submission} {g : Floor υ}, g.workers = f.workers →
      g.running = f.running → g.Attempt c u r f' →
      f'.running + f.workers.length = f.running + f'.workers.length ∧
        f.workers.length ≤ f'.workers.length := by
    intro c u r g hw hr h
    have hslots := h.slots
    have hmore : g.workers.length ≤ f'.workers.length := by
      cases h with
      | hires _ _ => simp [hire]
      | _ => simp [tell]
    rw [hw] at hslots hmore
    rw [hr] at hslots
    exact ⟨hslots, hmore⟩
  cases h with
  | rests => exact .inl (hsame rfl rfl)
  | submits h => exact .inl (hattempt rfl rfl h)
  | @resumes x _ _ _ h => exact .inl (hattempt (g := f.forget x.id) rfl rfl h)
  | withdraws _ => exact .inl (hsame rfl rfl)
  | starts _ _ => exact .inl (hsame rfl (List.length_map _))
  | joins _ _ => exact .inl (hsame rfl (List.length_map _))
  | @leaves x n hx hn =>
    have hkept : n = f.running := by
      rcases hn with ⟨hn, -⟩ | hn
      · exact hn
      · rw [hn, freed, hd, if_pos rfl]
    exact .inr ⟨hkept, hf.length_without hx n⟩
  | dismisses _ _ => exact .inl (hsame rfl (List.length_map _))
  | resizes _ => exact .inl (hsame rfl rfl)

namespace Pool

variable {p q : Pool υ} {h : List (Occurrence (Pool υ) (PoolEvent υ))} {e : PoolEvent υ}

/-- Does the task of a worker come to its end with the event? -/
def leaves (o : Occurrence (Pool υ) (PoolEvent υ)) : Bool :=
  ((poolSystem υ).after o).workers.length < o.before.workers.length

/-- Does the task of a worker come to its end with the event and leave its slot taken? -/
def strands (o : Occurrence (Pool υ) (PoolEvent υ)) : Bool :=
  bif o.before.dropped then leaves o else vanishes o

/-- The slots that are taken change with the workers, but for one that is stranded. -/
theorem standing_perform (ht : p.floor.Tidy) (hall : Pool.allows h p e = true) :
    (p.perform e).1.running + p.workers.length =
      p.running + (p.perform e).1.workers.length + (strands ⟨p, e⟩).toNat := by
  cases hd : p.dropped with
  | false =>
    have hstrands : strands ⟨p, e⟩ = vanishes ⟨p, e⟩ := by simp [strands, hd]
    rw [hstrands]
    exact slots_of_perform ht hd hall
  | true =>
    have hstrands : strands ⟨p, e⟩ =
        decide ((p.perform e).1.workers.length < p.workers.length) := by
      simp only [strands, hd, cond_true]
      rfl
    rw [hstrands]
    rcases (step_of_perform ht hall).slots_of_dropped ht hd with ⟨hslots, hmore⟩ | ⟨hslots, hone⟩
    · have hmore : p.workers.length ≤ (p.perform e).1.workers.length := hmore
      rw [decide_eq_false (Nat.not_lt.2 hmore)]
      exact hslots
    · have hslots : (p.perform e).1.running = p.running := hslots
      have hone : (p.perform e).1.workers.length + 1 = p.workers.length := hone
      rw [decide_eq_true (by omega), Bool.toNat_true]
      omega

theorem countP_concat {α : Type} (f : α → Bool) (xs : List α) (x : α) :
    (xs ++ [x]).countP f = xs.countP f + (f x).toNat := by
  rw [List.countP_append, List.countP_singleton]
  cases f x <;> rfl

/-- The slots that are taken are those of the workers that exist and of those that were stranded. -/
theorem standing_of_run (hrun : (poolSystem υ).Run h p) :
    p.running = p.workers.length + h.countP strands := by
  induction hrun with
  | @start p hs =>
    rw [running_of_start hs, workers_of_start hs]
    rfl
  | @next h p e hrun hall ih =>
    have hstanding := standing_perform (tidy_of_run hrun) hall
    rw [countP_concat]
    show (p.perform e).1.running = (p.perform e).1.workers.length + _
    omega

/-! ## A pool that is gone -/

end Pool

/-- A pool that is gone lists nobody as idle. -/
def Floor.Deserted (f : Floor υ) : Prop := f.dropped = true → f.idle = []

theorem Floor.Deserted.less {f f' : Floor υ} (hf : f.Deserted)
    (hd : f'.dropped = true → f.dropped = true) (hidle : f'.idle.Subperm f.idle) :
    f'.Deserted := by
  intro hdropped
  rw [hf (hd hdropped)] at hidle
  exact List.subperm_nil.1 hidle

theorem Floor.Deserted.attempt {f f' : Floor υ} {c : CallerId} {u : υ} {r : Submission}
    (hf : f.Deserted) (h : f.Attempt c u r f') : f'.Deserted := by
  cases h with
  | refuses e hrest => exact hf.less id hrest
  | waits hrest => exact hf.less id hrest
  | hands hrest _ => exact hf.less id ((List.sublist_cons_self _ _).subperm.trans hrest)
  | hires hrest _ => exact hf.less id hrest

theorem Floor.Deserted.sheds {f f' : Floor υ} (hf : f.Deserted) (h : f.Sheds f') :
    f'.Deserted := by
  obtain ⟨ws, rest, hall, rfl⟩ := h
  exact hf.less id (hall ▸ (List.sublist_append_right ws rest).subperm)

namespace Pool

variable {p q : Pool υ} {h : List (Occurrence (Pool υ) (PoolEvent υ))} {e : PoolEvent υ}

theorem deserted_complete (hp : p.floor.Deserted) (w : WorkerId) (now : Nat) :
    (p.complete w now).floor.Deserted := by
  cases hd : p.dropped with
  | true =>
    have hexits : p.complete w now = p.exit w := by simp [complete, hd]
    rw [hexits, floor_exit]
    exact hp
  | false =>
    have hthere : (p.complete w now).floor.dropped = false := by
      rcases floor_complete p w now with hfloor | hfloor
      · rw [hfloor]
        exact hd
      · rw [hfloor]
        exact hd
    intro hgone
    rw [hthere] at hgone
    contradiction

theorem deserted_perform (ht : p.floor.Tidy) (hp : p.floor.Deserted) (e : PoolEvent υ) :
    (p.perform e).1.floor.Deserted := by
  cases e with
  | submit c u => exact hp.attempt (floor_attempt p c u)
  | resume c =>
    exact keeps_resume (P := fun q => q.floor.Deserted) hp c fun u =>
      Floor.Deserted.attempt (f := (p.unpark c).floor) hp (floor_attempt (p.unpark c) c u)
  | abandon c =>
    rw [perform, floor_abandon]
    exact hp
  | pollWorker w =>
    rcases pollWorker_cases ht w with ⟨hfloor, -⟩ | ⟨x, u, inbox, -, -, -, hfloor, -⟩ |
      ⟨x, -, -, -, -, hfloor, -⟩
    · exact hfloor ▸ hp
    · exact hfloor ▸ hp
    · exact hfloor ▸ hp
  | complete w now => exact deserted_complete hp w now
  | crash w payload => exact floor_crash p w payload ▸ hp
  | killWorker w =>
    cases hw : p.worker? w with
    | none =>
      simp only [perform, killWorker, hw]
      exact hp
    | some x =>
      obtain ⟨n, -, hfloor⟩ := floor_killWorker hw
      exact hfloor ▸ hp
  | pollScavenger s now => exact hp.sheds (sheds_pollScavenger ht s now)
  | killScavenger s => exact hp
  | tune size =>
    rcases floor_tune p size with hfloor | ⟨-, n, hfloor⟩
    · exact hfloor ▸ hp
    · exact hfloor ▸ hp
  | release => exact hp.sheds (sheds_release ht)
  | beginRelease now timeout => exact hp.sheds (sheds_beginRelease ht now timeout)
  | reboot now => exact floor_reboot p now ▸ hp
  | drop =>
    intro _
    obtain ⟨discipline, hidle⟩ : ∃ discipline, p.drop.idle = { discipline := discipline } := by
      have hlobby := congrArg idle (lobby_stopAll
        ({ p.takeScavenger.1 with idle := p.takeScavenger.1.idle.reset.2, dropped := true } :
          Pool υ) p.takeScavenger.1.idle.reset.1)
      exact ⟨_, hlobby⟩
    show p.drop.idle.listed = []
    rw [hidle]
    rfl

/-- A pool has not been let go of when it is new. -/
theorem dropped_of_start (hs : (poolSystem υ).starts p) : p.dropped = false := by
  obtain ⟨capacity, options, now, p₀, hnew, rfl⟩ := hs
  obtain ⟨c, rfl⟩ := exists_eq_create hnew
  show (create c options now : Pool υ).floor.dropped = false
  unfold create
  rw [floor_debug, floor_startScavenger]
  rfl

theorem deserted_of_run (hrun : (poolSystem υ).Run h p) : p.floor.Deserted := by
  induction hrun with
  | start hs =>
    exact fun hgone => absurd ((dropped_of_start hs).symm.trans hgone) Bool.false_ne_true
  | @next h p e hrun _ ih => exact deserted_perform (tidy_of_run hrun) ih e

/-- When nobody can move at a pool that is gone, and no unit is executed, it has no worker. -/
theorem workers_of_still (hrun : (poolSystem υ).Run h p) (hd : p.dropped = true)
    (hquiet : p.isQuiet = true) (hrests : p.floor.executing = []) : p.workers = [] := by
  simp only [isQuiet, Bool.and_eq_true, List.all_eq_true] at hquiet
  have hnobody : p.floor.idle = [] := deserted_of_run hrun hd
  refine List.eq_nil_iff_forall_not_mem.2 fun x hx => ?_
  have hturn := hquiet.2 x hx
  cases hphase : x.phase with
  | spawned u => simp [hphase] at hturn
  | busy u =>
    have hjob := List.flatMap_eq_nil_iff.1 hrests x hx
    simp [Worker.job, hphase] at hjob
  | parked =>
    -- who waits would be listed
    have hinbox : x.inbox = [] := by simpa [hphase] using hturn
    have hlisted := listed_of_run hrun x hx hphase hinbox
    simp [hnobody] at hlisted

end Pool

end Overseer
