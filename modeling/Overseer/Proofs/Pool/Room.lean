import Mathlib.Data.Fintype.EquivFin
import Overseer.Proofs.Onward
import Overseer.Proofs.Pool.Capacity
import Overseer.Proofs.Pool.Closed
import Overseer.Proofs.Pool.Limit

/-!
# The room in a pool

`CanHire h p n` says that a pool with the history `h` may come to have `n` workers more, by events
that leave the capacity as it is and give no slot back. What `free` shows is the largest such number,
as long as no more workers run than the capacity allows (`free_of_run`). That stops being so when
the capacity is made smaller than the number of workers: nobody can be hired then, and the number
shown is below zero. With one worker too many it is the number that an unbounded pool shows
(`bounded_shows_unbounded`).
-/

namespace Overseer

variable {υ : Type}

namespace Floor

variable {f f' : Floor υ} {t : Traffic υ}

/-- The number of workers so far, who are numbered as they come. -/
def hired (f : Floor υ) : Nat := f.nextWorker

theorem Attempt.hired {c : CallerId} {u : υ} {r : Submission} (h : f.Attempt c u r f') :
    f'.hired + f.running = f.hired + f'.running := by
  cases h with
  | refuses e _ => rfl
  | waits _ => rfl
  | hands _ _ => rfl
  | hires _ _ => exact Nat.add_right_comm _ _ _

/-- A step that gives no slot back takes one for each worker that it creates. -/
theorem Step.hired (h : f.Step t f') (hkept : f.running ≤ f'.running) :
    f'.hired + f.running = f.hired + f'.running := by
  cases h with
  | submits h => exact h.hired
  | resumes _ h => exact h.hired
  | @leaves x n _ hn =>
    have hfreed : f.freed ≤ f.running := by
      unfold freed
      split <;> omega
    have hmore : f.running ≤ n := hkept
    show f.hired + f.running = f.hired + n
    omega
  | _ => rfl

end Floor

namespace Pool

variable {p p' : Pool υ} {h h' : List (Occurrence (Pool υ) (PoolEvent υ))} {e : PoolEvent υ}

/-- The number of workers that the pool has had. -/
def hired (p : Pool υ) : Nat := p.nextWorker

/-- The capacity stays as it is, and no slot is given back. -/
def Keeps (o : Occurrence (Pool υ) (PoolEvent υ)) : Prop :=
  ((poolSystem υ).after o).capacity = o.before.capacity ∧
    o.before.running ≤ ((poolSystem υ).after o).running

/-- The pool may come to have `n` workers more, with the slots that it has. -/
def CanHire (h : List (Occurrence (Pool υ) (PoolEvent υ))) (p : Pool υ) (n : Nat) : Prop :=
  ∃ h' p', (poolSystem υ).Onward h p h' p' ∧ (∀ o ∈ h', Keeps o) ∧
    p'.hired = p.hired + n

/-- The number that a pool shows tells it from an unbounded one, and is the number of workers that it
can still hire, one that the capacity allows. -/
structure TellsRoom (h : List (Occurrence (Pool υ) (PoolEvent υ))) (p : Pool υ) : Prop where
  marker : p.free = -1 → p.capacity = none
  range : p.capacity.isSome = true → 0 ≤ p.free ∧ p.free ≤ p.cap
  exact : p.capacity.isSome = true → ∀ n : Nat, CanHire h p n ↔ (n : Int) ≤ p.free

theorem free_of_capacity {c : Nat} (hc : p.capacity = some c) : p.free = c - p.running := by
  simp [free, hc]

/-! ## No more than is free -/

/-- As many slots are taken as workers are created, and none beyond the capacity. -/
theorem hired_of_onward (honward : (poolSystem υ).Onward h p h' p')
    (hrun : (poolSystem υ).Run h p) (hkeeps : ∀ o ∈ h', Keeps o) :
    p'.capacity = p.capacity ∧ p.running ≤ p'.running ∧
      p'.hired + p.running = p.hired + p'.running ∧
        (p.running < p'.running → ∀ c, p.capacity = some c → p'.running ≤ c) := by
  induction honward with
  | here => exact ⟨rfl, Nat.le_refl _, rfl, fun hless => absurd hless (Nat.lt_irrefl _)⟩
  | @next h h₁ p p₁ e hall _ ih =>
    obtain ⟨hcap, hkept⟩ := hkeeps ⟨p, e⟩ List.mem_cons_self
    have hstep := step_of_perform (tidy_of_run hrun) hall
    have hhired := hstep.hired hkept
    obtain ⟨hcap₁, hkept₁, hhired₁, hroom₁⟩ := ih (hrun.next hall) fun o ho =>
      hkeeps o (List.mem_cons_of_mem _ ho)
    change (p.perform e).1.capacity = p.capacity at hcap
    change p.running ≤ (p.perform e).1.running at hkept
    change (p.perform e).1.hired + p.running = p.hired + (p.perform e).1.running at hhired
    change p₁.capacity = (p.perform e).1.capacity at hcap₁
    change (p.perform e).1.running ≤ p₁.running at hkept₁
    change p₁.hired + (p.perform e).1.running = (p.perform e).1.hired + p₁.running
      at hhired₁
    refine ⟨hcap₁.trans hcap, by omega, by omega, fun hless c hc => ?_⟩
    by_cases hlater : (p.perform e).1.running < p₁.running
    · exact hroom₁ hlater c (hcap.trans hc)
    · have hrises : p.running < (p.perform e).1.running := by omega
      obtain ⟨-, hmore, hfree⟩ := hstep.rises hrises
      have hone : (p.perform e).1.running = p.running + 1 := hmore
      have hless : p.running < c := hfree c hc
      omega

theorem le_of_canHire {c n : Nat} (hrun : (poolSystem υ).Run h p) (hc : p.capacity = some c)
    (hhires : CanHire h p n) : n = 0 ∨ p.running + n ≤ c := by
  obtain ⟨h', p', honward, hkeeps, hnew⟩ := hhires
  obtain ⟨-, hkept, hhired, hroom⟩ := hired_of_onward honward hrun hkeeps
  rcases Nat.eq_or_lt_of_le hkept with hsame | hless
  · exact .inl (by omega)
  · have hle : p'.running ≤ c := hroom hless c hc
    exact .inr (by omega)

/-! ## All that is free -/

theorem canHire_zero : CanHire h p 0 := ⟨[], p, .here, by simp, rfl⟩

/-- What a call of `submit` does at an open pool with a free slot: it hands its unit to somebody on
the list, or else hires. -/
theorem serves_of_hasRoom (hopen : p.closed = false) (hroom : p.hasRoom = true) (c : CallerId)
    (u : υ) : (p.submit c u).1.closed = false ∧ (p.submit c u).1.dropped = p.dropped ∧
      (p.submit c u).1.capacity = p.capacity ∧
      ((p.submit c u).1.hired = p.hired ∧ (p.submit c u).1.running = p.running ∧
          (p.submit c u).1.idle.size < p.idle.size ∨
        (p.submit c u).1.hired = p.hired + 1 ∧ (p.submit c u).1.running = p.running + 1) := by
  have hclosed : (p.submit c u).1.closed = false := (closed_attempt p c u).trans hopen
  have hmeets : p.Meets c u (p.submit c u).1 (p.submit c u).2 := meets_attempt p c u
  have hattempt : p.floor.Attempt c u (p.submit c u).2 (p.submit c u).1.floor := floor_attempt p c u
  have hsize : ∀ q : Pool υ, q.floor.idle.length = q.idle.size := fun q => List.length_map _
  generalize (p.submit c u).1 = q at hclosed hmeets hattempt ⊢
  generalize (p.submit c u).2 = r at hmeets hattempt
  have hserved : r = .accepted := by
    cases hmeets with
    | shut hshut _ => simp [hopen] at hshut
    | serves _ _ _ => rfl
    | waits _ hfull _ _ => simp [hroom] at hfull
    | turnsAway hover _ => simp [hasRoom_eq_false_iff.2 ⟨hover.bounded, hover.full⟩] at hroom
  subst hserved
  generalize hf : q.floor = f at hattempt
  have hfields : q.dropped = f.dropped ∧ q.capacity = f.capacity ∧ q.hired = f.hired ∧
      q.running = f.running ∧ q.idle.size = f.idle.length := by
    subst hf
    exact ⟨rfl, rfl, rfl, rfl, (hsize q).symm⟩
  obtain ⟨hdropped, hcapacity, hnext, hrunning, hidle⟩ := hfields
  rw [hdropped, hcapacity, hnext, hrunning, hidle]
  cases hattempt with
  | @hands w rest hlisted _ =>
    have hless := hlisted.length_le
    rw [List.length_cons, hsize] at hless
    exact ⟨hclosed, rfl, rfl, .inl ⟨rfl, rfl, hless⟩⟩
  | hires _ _ => exact ⟨hclosed, rfl, rfl, .inr ⟨rfl, rfl⟩⟩

/-- An open pool with a free slot hires somebody, at the latest when those on the list are busy. -/
theorem exists_hire (u : υ) (hrun : (poolSystem υ).Run h p) (hthere : p.dropped = false)
    (hopen : p.closed = false) (hroom : p.hasRoom = true) : ∃ h' p',
      (poolSystem υ).Onward h p h' p' ∧ (∀ o ∈ h', Keeps o) ∧
        p'.hired = p.hired + 1 ∧ p'.dropped = false ∧ p'.closed = false := by
  induction hn : p.idle.size using Nat.strongRecOn generalizing h p with
  | ind n ih =>
    obtain ⟨c, hnew⟩ := Infinite.exists_notMem_finset (submitted h).toFinset
    have hall : (poolSystem υ).allows h p (.submit c u) = true := by
      show (!p.dropped && !(submitted h).contains c) = true
      simpa [hthere] using hnew
    obtain ⟨hclosed, hdropped, hcapacity, hserved⟩ := serves_of_hasRoom hopen hroom c u
    have hkeeps : Keeps (⟨p, .submit c u⟩ : Occurrence (Pool υ) (PoolEvent υ)) := by
      refine ⟨hcapacity, ?_⟩
      show p.running ≤ (p.submit c u).1.running
      omega
    rcases hserved with ⟨hsame, hrunning, hless⟩ | ⟨hone, -⟩
    · have hroom' : ((poolSystem υ).happen p (.submit c u)).1.hasRoom = true := by
        show (p.submit c u).1.hasRoom = true
        simpa only [hasRoom, hcapacity, hrunning] using hroom
      obtain ⟨h', p', honward, hkeeps', hnext, hthere', hopen'⟩ :=
        ih _ (hn ▸ hless) (hrun.next hall) (hdropped.trans hthere) hclosed hroom' rfl
      refine ⟨_, p', .next hall honward, List.forall_mem_cons.2 ⟨hkeeps, hkeeps'⟩, ?_, hthere',
        hopen'⟩
      exact hnext.trans (congrArg (· + 1) hsame)
    · exact ⟨_, _, .single hall, by simpa using hkeeps, hone, hdropped.trans hthere, hclosed⟩

/-- An open pool can hire as many as there are slots. -/
theorem canHire_of_open (u : υ) (n : Nat) (hrun : (poolSystem υ).Run h p)
    (hthere : p.dropped = false) (hopen : p.closed = false)
    (hroom : ∀ c, p.capacity = some c → p.running + n ≤ c) : CanHire h p n := by
  induction n generalizing h p with
  | zero => exact canHire_zero
  | succ n ih =>
    have hfree : p.hasRoom = true := by
      cases hc : p.capacity with
      | none => simp [hasRoom, hc]
      | some c =>
        have hle := hroom c hc
        exact (hasRoom_iff hc).2 (by omega)
    obtain ⟨h₁, p₁, honward₁, hkeeps₁, hnext₁, hthere₁, hopen₁⟩ :=
      exists_hire u hrun hthere hopen hfree
    obtain ⟨hcap, -, hhired, -⟩ := hired_of_onward honward₁ hrun hkeeps₁
    obtain ⟨h₂, p₂, honward₂, hkeeps₂, hnext₂⟩ := ih (honward₁.run hrun) hthere₁ hopen₁
      fun c hc => by
        have hle := hroom c (hcap.symm.trans hc)
        omega
    refine ⟨h₁ ++ h₂, p₂, honward₁.trans honward₂, ?_, by omega⟩
    exact List.forall_mem_append.2 ⟨hkeeps₁, hkeeps₂⟩

/-- A pool that is closed is opened first. -/
theorem canHire_of_room (u : υ) (n : Nat) (hrun : (poolSystem υ).Run h p)
    (hthere : p.dropped = false) (hroom : ∀ c, p.capacity = some c → p.running + n ≤ c) :
    CanHire h p n := by
  have hall : (poolSystem υ).allows h p (.reboot 0) = true := by
    show (!p.dropped) = true
    simp [hthere]
  obtain ⟨s, hlobby⟩ := lobby_reboot p 0
  have hopen : (p.reboot 0).closed = false := closed_of_lobby hlobby rfl
  have hfloor := floor_reboot p 0
  have hcapacity : (p.reboot 0).capacity = p.capacity := congrArg Floor.capacity hfloor
  have hrunning : (p.reboot 0).running = p.running := congrArg Floor.running hfloor
  have hnext : (p.reboot 0).hired = p.hired := congrArg Floor.hired hfloor
  have hdropped : (p.reboot 0).dropped = p.dropped := congrArg Floor.dropped hfloor
  obtain ⟨h', p', honward, hkeeps, hhired⟩ := canHire_of_open u n (hrun.next hall)
    (hdropped.trans hthere) hopen fun c hc => by
      have hle := hroom c (hcapacity.symm.trans hc)
      show (p.reboot 0).running + n ≤ c
      omega
  refine ⟨_, p', .next hall honward, List.forall_mem_cons.2 ⟨⟨hcapacity, ?_⟩, hkeeps⟩, ?_⟩
  · exact Nat.le_of_eq hrunning.symm
  · exact hhired.trans (congrArg (· + n) hnext)

/-! ## What a pool shows -/

/-- The number of workers that a pool can hire is the number that it shows exactly as long as no more
run than the capacity allows, and so always if the capacity was never made smaller. An unbounded pool
can hire any number. A bounded pool that has too many workers can hire none, shows a number below
zero, and shows that of an unbounded pool if it has one too many. -/
theorem free_of_run [Inhabited υ] (hrun : (poolSystem υ).Run h p) (hthere : p.dropped = false) :
    (TellsRoom h p ↔ p.isOverCapacity = false) ∧
      ((∀ o ∈ h, ¬ Shrinks o) → p.isOverCapacity = false) ∧
      (p.capacity = none → p.free = -1 ∧ ∀ n, CanHire h p n) ∧
      (p.isOverCapacity = true → p.free < 0 ∧ (p.free = -1 ↔ (p.running : Int) = p.cap + 1) ∧
        ∀ n, CanHire h p n ↔ n = 0) := by
  have hover : ∀ {c}, p.capacity = some c → (p.isOverCapacity = false ↔ p.running ≤ c) :=
    fun hc => by simp [isOverCapacity, hc]
  refine ⟨⟨fun htells => ?_, fun hfits => ?_⟩, fun hgrown => ?_, fun hnone => ?_, fun hmore => ?_⟩
  · cases hc : p.capacity with
    | none => simp [isOverCapacity, hc]
    | some c =>
      have hrange := (htells.range (by simp [hc])).1
      rw [free_of_capacity hc] at hrange
      exact (hover hc).2 (by omega)
  · cases hc : p.capacity with
    | none => exact ⟨fun _ => hc, by simp [hc], by simp [hc]⟩
    | some c =>
      have hle := (hover hc).1 hfits
      have hfree := free_of_capacity hc
      refine ⟨fun hmarker => by omega, fun _ => ?_, fun _ n => ⟨fun hhires => ?_, fun hn => ?_⟩⟩
      · rw [cap_of_capacity hc]
        omega
      · rcases le_of_canHire hrun hc hhires with rfl | hroom
        · omega
        · omega
      · refine canHire_of_room default n hrun hthere fun c' hc' => ?_
        obtain rfl := Option.some.inj (hc.symm.trans hc')
        omega
  · cases hc : p.capacity with
    | none => simp [isOverCapacity, hc]
    | some c =>
      have hle := running_le_cap hrun (by simp [hc]) hgrown
      rw [cap_of_capacity hc] at hle
      exact (hover hc).2 (by omega)
  · refine ⟨by simp [free, hnone], fun n => canHire_of_room default n hrun hthere fun c hc => ?_⟩
    rw [hnone] at hc
    contradiction
  · obtain ⟨c, hc, hless⟩ := isOverCapacity_iff.1 hmore
    have hfree := free_of_capacity hc
    refine ⟨by omega, ?_, fun n => ⟨fun hhires => ?_, ?_⟩⟩
    · rw [cap_of_capacity hc]
      omega
    · rcases le_of_canHire hrun hc hhires with rfl | hroom
      · rfl
      · omega
    · rintro rfl
      exact canHire_zero

/-- Two workers run when the capacity drops to one. -/
theorem free_of_run_shrunk : ∃ (h : List (Occurrence (Pool Nat) (PoolEvent Nat))) (p : Pool Nat),
    (poolSystem Nat).Run h p ∧ p.dropped = false ∧ p.isOverCapacity = true ∧ p.free = -1 ∧
      ¬ TellsRoom h p ∧ ∀ n, CanHire h p n ↔ n = 0 := by
  have hstart : (poolSystem Nat).starts (Pool.create (some 2) {} 0).collect.2 :=
    ⟨2, {}, 0, _, rfl, rfl⟩
  obtain ⟨h, p, hrun, hcheck⟩ := System.exists_run_of_replay hstart
    [.submit 0 10, .submit 1 11, .pollWorker 0, .pollWorker 1, .tune 1]
    (fun _ p => !p.dropped && p.isOverCapacity && p.free == -1) (by decide)
  simp only [Bool.and_eq_true, Bool.not_eq_true', beq_iff_eq] at hcheck
  obtain ⟨⟨hthere, hover⟩, hfree⟩ := hcheck
  obtain ⟨htells, -, -, hmore⟩ := free_of_run hrun hthere
  exact ⟨h, p, hrun, hthere, hover, hfree, fun hroom => by simp [htells.1 hroom] at hover,
    (hmore hover).2.2⟩

/-- A bounded pool shows the number of an unbounded one. -/
theorem bounded_shows_unbounded : ¬ ∀ (h : List (Occurrence (Pool Nat) (PoolEvent Nat)))
    (p : Pool Nat), (poolSystem Nat).Run h p → p.dropped = false →
      (p.free = -1 → p.capacity = none) ∧
        (p.capacity.isSome = true → 0 ≤ p.free ∧ p.free ≤ p.cap) := by
  intro hclaim
  have hstart : (poolSystem Nat).starts (Pool.create (some 2) {} 0).collect.2 :=
    ⟨2, {}, 0, _, rfl, rfl⟩
  obtain ⟨h, p, hrun, hcheck⟩ := System.exists_run_of_replay hstart
    [.submit 0 10, .submit 1 11, .tune 1]
    (fun _ p => !p.dropped && p.free == -1 && p.capacity.isSome) (by decide)
  simp only [Bool.and_eq_true, Bool.not_eq_true', beq_iff_eq] at hcheck
  obtain ⟨⟨hthere, hfree⟩, hbounded⟩ := hcheck
  simp [(hclaim h p hrun hthere).1 hfree] at hbounded

end Pool

end Overseer
