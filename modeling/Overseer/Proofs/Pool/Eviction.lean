import Overseer.Proofs.Pool.Duty

/-!
# How long workers sit idle

`timedSystem` is a pool with a clock: events happen at the time that the clock shows, and between
any two of them milliseconds may pass. No task is dropped. A scavenger stops nobody but workers
that wait for a message and have done so for the expiry at least, and the pool counts as evicted
exactly those that were stopped so. As soon as no scavenger has anything to do, everybody who is
listed as idle has been for less than twice the expiry (`eviction_of_run`).

The stamps on the list are not taken on trust: they are the times at which the workers last ended
a unit (`stamped_of_run`).
-/

namespace Overseer

variable {υ : Type}

/-! ## Who is told to exit -/

/-- Has a worker been told to exit? -/
def Worker.isStopping (x : Worker υ) : Bool :=
  x.inbox.any fun m =>
    match m with
    | .stop => true
    | .unit _ => false

namespace Floor

variable {f f' : Floor υ}

/-- The workers that have been told to exit. -/
def stopping (f : Floor υ) : List WorkerId := (f.workers.filter Worker.isStopping).map (·.id)

theorem Tidy.nodup_stopping (hf : f.Tidy) : f.stopping.Nodup :=
  hf.nodup.sublist (List.filter_sublist.map _)

theorem mem_stopping {w : WorkerId} :
    w ∈ f.stopping ↔ ∃ x ∈ f.workers, x.isStopping = true ∧ x.id = w := by
  simp only [stopping, List.mem_map, List.mem_filter, and_assoc]

theorem mem_stopping_tell {ws rest : List WorkerId} {w : WorkerId} :
    w ∈ (({ f with idle := rest } : Floor υ).tell ws .stop).stopping ↔
      w ∈ f.stopping ∨ w ∈ ws ∧ w ∈ f.workers.map (·.id) := by
  have htold : ∀ x : Worker υ,
      ({ x with inbox := x.inbox ++ [.stop] } : Worker υ).isStopping = true := fun x => by
    simp [Worker.isStopping]
  rw [mem_stopping, mem_stopping]
  constructor
  · rintro ⟨y, hy, hstops, rfl⟩
    obtain ⟨x, hx, rfl⟩ := List.mem_map.1 hy
    split at hstops
    · rename_i hw
      rw [if_pos hw]
      have hid : x.id ∈ f.workers.map (·.id) := List.mem_map_of_mem hx
      exact .inr ⟨hw, hid⟩
    · rename_i hw
      rw [if_neg hw]
      exact .inl ⟨x, hx, hstops, rfl⟩
  · rintro (⟨x, hx, hstops, rfl⟩ | ⟨hw, hid⟩)
    · refine ⟨_, List.mem_map_of_mem hx, ?_, ?_⟩
      · split
        · exact htold x
        · exact hstops
      · split <;> rfl
    · obtain ⟨x, hx, rfl⟩ := List.mem_map.1 hid
      refine ⟨_, List.mem_map_of_mem hx, ?_, ?_⟩
      · rw [if_pos hw]
        exact htold x
      · rw [if_pos hw]

/-- Who was idle had not been told to exit. -/
theorem Tidy.not_stopping (hf : f.Tidy) {w : WorkerId} (hw : w ∈ f.idle) : w ∉ f.stopping := by
  intro hstops
  obtain ⟨x, hx, htold, rfl⟩ := mem_stopping.1 hstops
  unfold Worker.isStopping at htold
  rw [(hf.waits x hx hw).2] at htold
  cases htold

/-- The idle workers that are told to exit, and no others, have been told after it and not
before. -/
theorem Sheds.stopping (h : f.Sheds f') (hf : f.Tidy) (hmanned : f.Manned) {ws : List WorkerId}
    (hall : ws ++ f'.idle = f.idle) : (f'.stopping.filter (· ∉ f.stopping)).Perm ws := by
  have hf' : f'.Tidy := hf.step h.step
  obtain ⟨ws', rest, hsplit, rfl⟩ := h
  obtain rfl : ws' = ws := List.append_cancel_right (hsplit.trans hall.symm)
  have hidle : ∀ w ∈ ws', w ∈ f.idle := fun w hw => hsplit ▸ List.mem_append_left _ hw
  have hnodup : ws'.Nodup := (List.nodup_append.1 (hsplit ▸ hf.idle_nodup)).1
  refine (List.perm_ext_iff_of_nodup (hf'.nodup_stopping.filter _) hnodup).2 fun w => ?_
  rw [List.mem_filter, mem_stopping_tell, decide_eq_true_eq]
  constructor
  · rintro ⟨hbefore | hnow, hnew⟩
    · exact absurd hbefore hnew
    · exact hnow.1
  · exact fun hw => ⟨.inr ⟨hw, hmanned (hidle w hw)⟩, hf.not_stopping (hidle w hw)⟩

end Floor

namespace Pool

variable {p : Pool υ} {h : List (Occurrence (Pool υ) (PoolEvent υ))} {e : PoolEvent υ}

theorem options_of_patrol {q r : Pool υ} (hq : q.patrol = r.patrol) : q.options = r.options :=
  eq_of_patrol (fun _ => rfl) hq

theorem evicted_of_patrol {q r : Pool υ} (hq : q.patrol = r.patrol) :
    q.tally.evicted = r.tally.evicted :=
  eq_of_patrol (f := fun p => p.tally.evicted) (fun _ => rfl) hq

/-- The workers that an event tells to exit. -/
def stopped (p : Pool υ) (e : PoolEvent υ) : List WorkerId :=
  (p.perform e).1.floor.stopping.filter (· ∉ p.floor.stopping)

/-- A scavenger that has a turn takes those off the list that have expired, and counts them. -/
theorem expires_pollScavenger (p : Pool υ) (s : ScavengerId) (now : Nat) :
    ∃ ws, ws ++ (p.pollScavenger s now).1.floor.idle = p.floor.idle ∧
      (p.pollScavenger s now).1.options = p.options ∧
      (p.pollScavenger s now).1.tally.evicted = p.tally.evicted + ws.length ∧
      ∀ w ∈ ws, ∃ since, (w, since) ∈ p.idle.items ∧ since + p.options.expiryMillis ≤ now := by
  rcases pollScavenger_cases p s now with hsame | ⟨x, -, -, hended⟩ | ⟨x, -, -, hticks⟩
  · rw [hsame]
    exact ⟨[], rfl, rfl, rfl, by simp⟩
  · rw [hended]
    exact ⟨[], rfl, rfl, rfl, by simp⟩
  · rw [hticks]
    generalize hq : p.setScavenger s _ = q
    obtain ⟨hidle, hoptions, htally⟩ : q.idle = p.idle ∧ q.options = p.options ∧
        q.tally = p.tally := by
      subst hq
      exact ⟨rfl, rfl, rfl⟩
    have hpatrol := patrol_purge q now
    have hitems := congrArg (fun p => p.idle.items) hpatrol
    change (q.purge now).idle.items = q.unexpired now at hitems
    have hevicted := evicted_of_patrol hpatrol
    rw [options_of_patrol hpatrol, hevicted]
    refine ⟨q.expired now, ?_, hoptions, by rw [← htally], fun w hw => ?_⟩
    · show q.expired now ++ (q.purge now).idle.listed = p.idle.listed
      rw [← hidle, IdleList.listed, hitems]
      exact q.idle.expire_append q.options.expiryMillis now
    · obtain ⟨i, hi, rfl⟩ := List.mem_map.1 hw
      have hexpired := List.mem_takeWhile_imp hi
      refine ⟨i.2, hidle ▸ List.takeWhile_subset _ hi, ?_⟩
      rw [← hoptions]
      simpa [IdleList.expired] using hexpired

/-- A scavenger that has a turn tells workers to exit that have expired, and counts them. -/
theorem evicts_pollScavenger (ht : p.floor.Tidy) (hmanned : p.floor.Manned) (s : ScavengerId)
    (now : Nat) : (p.pollScavenger s now).1.options = p.options ∧
      (p.pollScavenger s now).1.tally.evicted =
        p.tally.evicted + (p.stopped (.pollScavenger s now)).length ∧
      ∀ w ∈ p.stopped (.pollScavenger s now),
        ∃ since, (w, since) ∈ p.idle.items ∧ since + p.options.expiryMillis ≤ now := by
  obtain ⟨ws, hall, hoptions, hevicted, hexpired⟩ := expires_pollScavenger p s now
  have hstopped := (sheds_pollScavenger ht s now).stopping ht hmanned hall
  refine ⟨hoptions, ?_, fun w hw => hexpired w (hstopped.mem_iff.1 hw)⟩
  rw [hevicted, ← hstopped.length_eq]
  rfl

/-- Nothing but the turn of a scavenger is counted as an eviction. -/
theorem Rounds.evicted {q : Pool υ} (hq : p.Rounds e q) (hpoll : ∀ s t, e ≠ .pollScavenger s t) :
    q.options = p.options ∧ q.tally.evicted = p.tally.evicted := by
  have hsame : ∀ {r : Pool υ}, q.patrol = r.patrol → r.options = p.options ∧
      r.tally.evicted = p.tally.evicted → q.options = p.options ∧
        q.tally.evicted = p.tally.evicted := fun hq hr =>
    ⟨(options_of_patrol hq).trans hr.1, (evicted_of_patrol hq).trans hr.2⟩
  cases hq with
  | thins _ hpatrol => exact hsame hpatrol ⟨rfl, rfl⟩
  | joins _ _ hpatrol => exact hsame hpatrol ⟨rfl, rfl⟩
  | ends _ _ => exact absurd rfl (hpoll _ _)
  | ticks _ _ => exact absurd rfl (hpoll _ _)
  | resizes hpatrol => exact hsame hpatrol ⟨rfl, rfl⟩
  | retires _ hpatrol => exact hsame hpatrol ⟨rfl, rfl⟩
  | shuts hpatrol => exact hsame hpatrol ⟨rfl, rfl⟩
  | @opens now _ _ hpatrol =>
    obtain ⟨hoptions, -, htally⟩ := idle_startScavenger ({ p with closed := false } : Pool υ) now
    exact hsame hpatrol ⟨hoptions, congrArg Tally.evicted htally⟩
  | goes hpatrol => exact hsame hpatrol ⟨rfl, rfl⟩

/-- Who is on the list was before, or has just ended a unit. -/
theorem Rounds.items {q : Pool υ} (hq : p.Rounds e q) : q.idle.items.Sublist p.idle.items ∨
    ∃ w now, e = .complete w now ∧ q.idle.items = p.idle.items ++ [(w, now)] := by
  have hsame : ∀ {r : Pool υ}, q.patrol = r.patrol → q.idle.items = r.idle.items :=
    eq_of_patrol (f := fun p => p.idle.items) fun _ => rfl
  cases hq with
  | thins hsub hpatrol => exact .inl (hsame hpatrol ▸ hsub)
  | joins _ _ hpatrol => exact .inr ⟨_, _, rfl, hsame hpatrol⟩
  | ends _ _ => exact .inl (.refl _)
  | ticks _ _ => exact .inl ((hsame (patrol_purge _ _)) ▸ List.dropWhile_sublist _)
  | resizes hpatrol => exact .inl (hsame hpatrol ▸ .refl _)
  | retires _ hpatrol => exact .inl (hsame hpatrol ▸ .refl _)
  | shuts hpatrol => exact .inl (hsame hpatrol ▸ List.nil_sublist _)
  | @opens now _ _ hpatrol =>
    obtain ⟨-, hidle, -⟩ := idle_startScavenger ({ p with closed := false } : Pool υ) now
    rw [hsame hpatrol, hidle]
    exact .inl (.refl _)
  | goes hpatrol => exact .inl (hsame hpatrol ▸ List.nil_sublist _)

/-- Nobody is listed in a new pool, and nobody was evicted. -/
theorem items_create (c : Option Nat) (options : PoolOptions) (now : Nat) :
    (create c options now : Pool υ).idle.items = [] ∧
      (create c options now : Pool υ).tally.evicted = 0 := by
  unfold create
  obtain ⟨-, hidle, htally⟩ := idle_startScavenger ({
    options := options.normalized
    capacity := c
    idle := { discipline :=
      if options.normalized.prealloc then .ring (c.getD 0) else .stack } } : Pool υ) now
  exact ⟨congrArg IdleList.items hidle, congrArg Tally.evicted htally⟩

end Pool

/-! ## A pool with a clock -/

/-- A pool and the time. -/
structure Timed (υ : Type) where
  pool : Pool υ
  now : Nat

/-- What happens to a pool while time passes. -/
inductive TimedEvent (υ : Type) where
  | happens (e : PoolEvent υ)
  /-- A millisecond passes. -/
  | passes

/-- What has happened to the pool. -/
def poolHistory (h : List (Occurrence (Timed υ) (TimedEvent υ))) :
    List (Occurrence (Pool υ) (PoolEvent υ)) :=
  h.filterMap fun o =>
    match o.event with
    | .happens e => some ⟨o.before.pool, e⟩
    | .passes => none

/-- What the outside promises about the next event: it happens when the clock says so, and no task
is dropped. -/
def Timed.allows (h : List (Occurrence (Timed υ) (TimedEvent υ))) (t : Timed υ) :
    TimedEvent υ → Bool
  | .happens e => Pool.allows (poolHistory h) t.pool e && e.time?.all (· == t.now) && !e.dropsTask
  | .passes => true

/-- A pool to which events happen while time passes. -/
def timedSystem (υ : Type) :
    System (Timed υ) (TimedEvent υ) (Option (List PoolNotice × PoolAnswer υ)) where
  starts t := ∃ capacity options p₀, Pool.new capacity options t.now = .ok p₀ ∧
    t.pool = p₀.collect.2
  happen t e :=
    match e with
    | .happens e => (⟨((poolSystem υ).happen t.pool e).1, t.now⟩,
        some ((poolSystem υ).happen t.pool e).2)
    | .passes => (⟨t.pool, t.now + 1⟩, none)
  allows := Timed.allows

/-- The event ends a unit of the worker. -/
def TimedEvent.ends (w : WorkerId) : TimedEvent υ → Bool
  | .happens (.complete v _) => v == w
  | _ => false

/-- Has a scavenger something to do? -/
def Scavenger.isRunnable (x : Scavenger) (now : Nat) : Bool :=
  x.phase == .running && (x.cancelled || decide (x.nextTick ≤ now))

section Histories

variable (h : List (Occurrence (Timed υ) (TimedEvent υ)))

/-- The time at which the worker last ended a unit. -/
def wentIdle? (w : WorkerId) : Option Nat :=
  (h.reverse.find? fun o => o.event.ends w).map fun o => o.before.now

/-- The workers that a scavenger tells to exit. -/
def evictions (o : Occurrence (Timed υ) (TimedEvent υ)) : List WorkerId :=
  match o.event with
  | .happens (.pollScavenger s now) => o.before.pool.stopped (.pollScavenger s now)
  | _ => []

theorem wentIdle?_append (t : Timed υ) (e : TimedEvent υ) (w : WorkerId) :
    wentIdle? (h ++ [⟨t, e⟩]) w = if e.ends w then some t.now else wentIdle? h w := by
  unfold wentIdle?
  rw [List.reverse_append, List.reverse_singleton, List.singleton_append, List.find?_cons]
  cases e.ends w <;> rfl

end Histories

namespace Timed

variable {h : List (Occurrence (Timed υ) (TimedEvent υ))} {t : Timed υ} {e : PoolEvent υ}

theorem allows_happens (hall : Timed.allows h t (.happens e) = true) :
    Pool.allows (poolHistory h) t.pool e = true ∧ (∀ now ∈ e.time?, now = t.now) ∧
      e.dropsTask = false := by
  simp only [Timed.allows, Bool.and_eq_true, Bool.not_eq_true'] at hall
  obtain ⟨⟨hpool, htime⟩, hkept⟩ := hall
  refine ⟨hpool, fun now hnow => ?_, hkept⟩
  rw [Option.mem_def.1 hnow] at htime
  simpa using htime

theorem poolHistory_happens (h : List (Occurrence (Timed υ) (TimedEvent υ))) (t : Timed υ)
    (e : PoolEvent υ) :
    poolHistory (h ++ [⟨t, .happens e⟩]) = poolHistory h ++ [⟨t.pool, e⟩] := by
  simp [poolHistory, List.filterMap_append]

theorem poolHistory_passes (h : List (Occurrence (Timed υ) (TimedEvent υ))) (t : Timed υ) :
    poolHistory (h ++ [⟨t, .passes⟩]) = poolHistory h := by
  simp [poolHistory, List.filterMap_append]

/-- Nobody is dropped, and what happens to the pool is one of its histories. -/
theorem pool_of_run (hrun : (timedSystem υ).Run h t) :
    (poolSystem υ).Run (poolHistory h) t.pool ∧
      ∀ o ∈ poolHistory h, ∀ w, o.event ≠ .killWorker w := by
  induction hrun with
  | start hs =>
    obtain ⟨capacity, options, p₀, hnew, hpool⟩ := hs
    exact ⟨.start ⟨capacity, options, _, p₀, hnew, hpool⟩, by simp [poolHistory]⟩
  | @next h t e _ hall ih =>
    cases e with
    | happens e =>
      obtain ⟨hpool, -, hkept⟩ := allows_happens hall
      rw [poolHistory_happens]
      refine ⟨ih.1.next hpool, fun o ho w hkill => ?_⟩
      rcases List.mem_append.1 ho with ho | ho
      · exact ih.2 o ho w hkill
      · obtain rfl := List.mem_singleton.1 ho
        obtain rfl : e = .killWorker w := hkill
        cases hkept
    | passes =>
      rw [poolHistory_passes]
      exact ih

theorem patrolled_of_run (hrun : (timedSystem υ).Run h t) : t.pool.Patrolled t.now := by
  induction hrun with
  | @start t hs =>
    obtain ⟨capacity, options, p₀, hnew, hpool⟩ := hs
    obtain ⟨c, rfl⟩ := Pool.exists_eq_create hnew
    rw [hpool]
    exact (Pool.patrolled_create c options t.now).of_patrol (Pool.patrol_collect _)
  | @next h t e _ hall ih =>
    cases e with
    | happens e =>
      obtain ⟨hpool, htime, hkept⟩ := allows_happens hall
      exact (ih.perform hpool htime hkept).of_patrol (Pool.patrol_collect _)
    | passes => exact ih.later (Nat.le_succ _)

/-- The stamps on the list are the times at which the workers last ended a unit. -/
theorem stamped_of_run (hrun : (timedSystem υ).Run h t) :
    ∀ i ∈ t.pool.idle.items, wentIdle? h i.1 = some i.2 := by
  induction hrun with
  | @start t hs =>
    obtain ⟨capacity, options, p₀, hnew, hpool⟩ := hs
    obtain ⟨c, rfl⟩ := Pool.exists_eq_create hnew
    intro i hi
    rw [hpool] at hi
    have hi : i ∈ (Pool.create c options t.now : Pool υ).idle.items := hi
    simp [Pool.items_create] at hi
  | @next h t e hrun hall ih =>
    intro i hi
    rw [wentIdle?_append]
    cases e with
    | passes => exact ih i hi
    | happens e =>
      obtain ⟨hpool, htime, hkept⟩ := allows_happens hall
      have htidy := Pool.tidy_of_run (pool_of_run hrun).1
      have hi : i ∈ (t.pool.perform e).1.idle.items := hi
      -- a worker that ends a unit was not on the list
      have hstays : i ∈ t.pool.idle.items → (TimedEvent.happens e).ends i.1 = false := by
        intro hlisted
        cases e with
        | complete w now =>
          have hne : w ≠ i.1 := by
            rintro rfl
            exact Pool.not_idle_of_isBusy htidy hpool (List.mem_map_of_mem hlisted)
          simpa [TimedEvent.ends] using hne
        | _ => rfl
      rcases (Pool.rounds_perform t.pool hkept).items with hsub | ⟨w, now, rfl, hjoined⟩
      · have hlisted := hsub.subset hi
        rw [hstays hlisted]
        exact ih i hlisted
      · rw [hjoined] at hi
        rcases List.mem_append.1 hi with hlisted | hnew
        · rw [hstays hlisted]
          exact ih i hlisted
        · obtain rfl := List.mem_singleton.1 hnew
          have hnow : now = t.now := htime now rfl
          simp [TimedEvent.ends, hnow]

/-- The options never change, and exactly the evictions are counted. -/
theorem evicted_of_run (hrun : (timedSystem υ).Run h t) :
    (∀ o ∈ h, o.before.pool.options = t.pool.options) ∧
      t.pool.tally.evicted = (h.flatMap evictions).length := by
  induction hrun with
  | @start t hs =>
    obtain ⟨capacity, options, p₀, hnew, hpool⟩ := hs
    obtain ⟨c, rfl⟩ := Pool.exists_eq_create hnew
    refine ⟨by simp, ?_⟩
    rw [hpool]
    exact (Pool.items_create c options t.now).2
  | @next h t e hrun hall ih =>
    obtain ⟨hoptions, hevicted⟩ := ih
    rw [List.flatMap_append, List.flatMap_singleton, List.length_append, ← hevicted]
    have hnow : ((timedSystem υ).happen t e).1.pool.options = t.pool.options ∧
        ((timedSystem υ).happen t e).1.pool.tally.evicted =
          t.pool.tally.evicted + (evictions ⟨t, e⟩).length := by
      cases e with
      | passes => exact ⟨rfl, rfl⟩
      | happens e =>
        obtain ⟨hpool, htime, hkept⟩ := allows_happens hall
        obtain ⟨hrun', hnobody⟩ := pool_of_run hrun
        by_cases hpoll : ∃ s now, e = .pollScavenger s now
        · obtain ⟨s, now, rfl⟩ := hpoll
          obtain ⟨hoptions, hevicted, -⟩ := Pool.evicts_pollScavenger (Pool.tidy_of_run hrun')
            (Pool.manned_of_run hrun' hnobody) s now
          exact ⟨hoptions, hevicted⟩
        · have hother : ∀ s now, e ≠ .pollScavenger s now := fun s now he => hpoll ⟨s, now, he⟩
          obtain ⟨hoptions, hevicted⟩ := (Pool.rounds_perform t.pool hkept).evicted hother
          have hnobody : evictions ⟨t, .happens e⟩ = [] := by
            unfold evictions
            split
            · rename_i s now he
              exact absurd (TimedEvent.happens.inj he) (hother s now)
            · rfl
          rw [hnobody]
          exact ⟨hoptions, hevicted⟩
    refine ⟨fun o ho => ?_, hnow.2⟩
    rw [hnow.1]
    rcases List.mem_append.1 ho with ho | ho
    · exact hoptions o ho
    · obtain rfl := List.mem_singleton.1 ho
      rfl

/-- Whom a scavenger tells to exit waited for a message, and had done so for the expiry at least. -/
theorem stopped_of_mem (hrun : (timedSystem υ).Run h t)
    {pre post : List (Occurrence (Timed υ) (TimedEvent υ))}
    {o : Occurrence (Timed υ) (TimedEvent υ)} (heq : h = pre ++ o :: post) {w : WorkerId}
    (hw : w ∈ evictions o) : ∃ x since, o.before.pool.worker? w = some x ∧ x.phase = .parked ∧
      x.inbox = [] ∧ wentIdle? pre w = some since ∧
        since + t.pool.options.expiryMillis ≤ o.before.now := by
  obtain ⟨hpre, hall, -⟩ := hrun.split heq
  have hoptions := (evicted_of_run hrun).1 o (heq ▸ by simp)
  obtain ⟨⟨p, now⟩, e⟩ := o
  unfold evictions at hw
  split at hw
  · rename_i s now' he
    obtain rfl : e = .happens (.pollScavenger s now') := he
    obtain ⟨hpool, hnobody⟩ := pool_of_run hpre
    obtain ⟨-, htime, -⟩ := allows_happens hall
    obtain rfl : now' = now := htime now' rfl
    have ht := Pool.tidy_of_run hpool
    have hmanned := Pool.manned_of_run hpool hnobody
    obtain ⟨-, -, hexpired⟩ := Pool.evicts_pollScavenger ht hmanned s now'
    obtain ⟨since, hlisted, hlong⟩ := hexpired w hw
    have hidle : w ∈ p.floor.idle := List.mem_map_of_mem (f := Prod.fst) hlisted
    obtain ⟨x, hx, rfl⟩ := List.mem_map.1 (hmanned hidle)
    obtain ⟨hphase, hinbox⟩ := ht.waits x hx hidle
    exact ⟨x, since, Pool.worker?_of_mem ht hx, hphase, hinbox,
      stamped_of_run hpre _ hlisted, hoptions ▸ hlong⟩
  · cases hw

/-- As soon as no scavenger has anything to do, nobody has been idle for twice the expiry. -/
theorem young_of_rest (hrun : (timedSystem υ).Run h t)
    (hpurge : t.pool.options.disablePurge = false)
    (hrest : ∀ x ∈ t.pool.scavengers, x.isRunnable t.now = false) {w : WorkerId}
    (hw : w ∈ t.pool.idle.listed) : ∃ since, wentIdle? h w = some since ∧
      t.now < since + 2 * t.pool.options.expiryMillis := by
  obtain ⟨i, hi, rfl⟩ := List.mem_map.1 hw
  have hp := patrolled_of_run hrun
  refine ⟨i.2, stamped_of_run hrun i hi, ?_⟩
  have hnobody : ¬(t.pool.closed = true ∨ t.pool.dropped = true) := fun hshut => by
    rw [hp.empty hshut] at hi
    cases hi
  simp only [not_or, Bool.not_eq_true] at hnobody
  obtain ⟨x, hx⟩ := hp.onDuty hpurge hnobody.1 hnobody.2
  have hlate : t.now < x.nextTick := by
    have hidle := hrest x (List.mem_of_find?_eq_some hx.there)
    simpa [Scavenger.isRunnable, hx.running, hx.kept] using hidle
  exact Nat.lt_trans hlate (hx.inTime i hi)

/-- Whatever happens to a pool that purges, at whatever times, and without a task that is dropped :
whom a scavenger tells to exit runs no unit and has not been handed one, and has been idle for the
expiry at least; the pool counts exactly those as evicted; and as soon as no scavenger has anything
to do, everybody who is listed as idle has been for less than twice the expiry. -/
theorem eviction_of_run (hrun : (timedSystem υ).Run h t)
    (hpurge : t.pool.options.disablePurge = false) {expiry : Nat}
    (hexpiry : t.pool.options.expiry = .ofMillis expiry) :
    (∀ pre o post, h = pre ++ o :: post → ∀ w ∈ evictions o, ∃ x since,
      o.before.pool.worker? w = some x ∧ x.phase = .parked ∧ x.inbox = [] ∧
        wentIdle? pre w = some since ∧ since + expiry ≤ o.before.now) ∧
    t.pool.tally.evicted = (h.flatMap evictions).length ∧
    ((∀ x ∈ t.pool.scavengers, x.isRunnable t.now = false) → ∀ w ∈ t.pool.idle.listed,
      ∃ since, wentIdle? h w = some since ∧ t.now < since + 2 * expiry) := by
  have hmillis : t.pool.options.expiryMillis = expiry := by
    show (t.pool.options.expiry.nanos + 999999) / 1000000 = expiry
    rw [hexpiry]
    show (expiry * 1000000 + 999999) / 1000000 = expiry
    omega
  refine ⟨fun pre o post heq w hw => ?_, (evicted_of_run hrun).2, fun hrest w hw => ?_⟩
  · rw [← hmillis]
    exact stopped_of_mem hrun heq hw
  · rw [← hmillis]
    exact young_of_rest hrun hpurge hrest hw

/-- An expiry of two milliseconds, and two workers that go idle one millisecond after the other. The
tick comes for the first one, and the second one waits for the next tick. -/
theorem eviction_of_run_ticked : ∃ (h : List (Occurrence (Timed Nat) (TimedEvent Nat)))
    (t : Timed Nat), (timedSystem Nat).Run h t ∧ t.pool.options.disablePurge = false ∧
      t.pool.options.expiry = .ofMillis 2 ∧ h.flatMap evictions = [0] ∧
      t.pool.tally.evicted = 1 ∧ (∀ x ∈ t.pool.scavengers, x.isRunnable t.now = false) ∧
      t.pool.idle.listed = [1] ∧
      ∀ w ∈ t.pool.idle.listed, ∃ since, wentIdle? h w = some since ∧ t.now < since + 2 * 2 := by
  have hstart : (timedSystem Nat).starts
      ⟨(Pool.create (some 2) { expiry := .ofMillis 2 } 0).collect.2, 0⟩ :=
    ⟨2, { expiry := .ofMillis 2 }, _, rfl, rfl⟩
  obtain ⟨h, t, hrun, hcheck⟩ := System.exists_run_of_replay hstart
    [.happens (.submit 0 10), .happens (.submit 1 11), .happens (.pollWorker 0),
      .happens (.pollWorker 1), .happens (.complete 0 0), .passes, .happens (.complete 1 1),
      .passes, .happens (.pollScavenger 0 2), .happens (.pollWorker 0), .passes]
    (fun h t => !t.pool.options.disablePurge &&
      decide (t.pool.options.expiry = .ofMillis 2 ∧ h.flatMap evictions = [0] ∧
        t.pool.idle.listed = [1]) && t.pool.scavengers.all fun x => !x.isRunnable t.now)
    (by decide)
  simp only [Bool.and_eq_true, Bool.not_eq_true', decide_eq_true_eq, List.all_eq_true] at hcheck
  obtain ⟨⟨hpurge, hexpiry, hstopped, hlisted⟩, hrest⟩ := hcheck
  obtain ⟨-, hevicted, hyoung⟩ := eviction_of_run hrun hpurge hexpiry
  exact ⟨h, t, hrun, hpurge, hexpiry, hstopped, by rw [hevicted, hstopped]; rfl, hrest, hlisted,
    hyoung hrest⟩

end Timed

end Overseer
