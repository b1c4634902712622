import Overseer.Proofs.Pool.Patrol
import Overseer.Proofs.Pool.Turnover

/-!
# A scavenger on duty

The list of idle workers is in the order of its stamps, and nobody is on the list of a pool that
is closed or gone. As long as the pool is open it has a scavenger that goes on, whose next tick is
at most one expiry away, and less than two expiries after the stamp of anybody on the list
(`OnDuty`) : a worker that joins does so after the tick before the next one, or at that tick, and
who is still on the list after a tick had not expired by then.
-/

namespace Overseer

/-- The time at which an event happens, if the pool takes notice of it. -/
def PoolEvent.time? {υ : Type} : PoolEvent υ → Option Nat
  | .complete _ now | .pollScavenger _ now | .beginRelease now _ | .reboot now => some now
  | _ => none

namespace Pool

variable {υ : Type} {p q : Pool υ} {now : Nat} {x : Scavenger}

/-- A scavenger of the pool goes on, and its next tick comes in time for everybody who is listed. -/
structure OnDuty (p : Pool υ) (now : Nat) (x : Scavenger) : Prop where
  own : p.scavenger = some x.id
  there : p.scavenger? x.id = some x
  running : x.phase = .running
  kept : x.cancelled = false
  soon : x.nextTick ≤ now + p.options.expiryMillis
  inTime : ∀ i ∈ p.idle.items, x.nextTick < i.2 + 2 * p.options.expiryMillis

/-- The list of idle workers is in order, and an open pool that purges has a scavenger on duty. -/
structure Patrolled (p : Pool υ) (now : Nat) : Prop where
  expiry : 0 < p.options.expiryMillis
  sorted : p.idle.items.Pairwise fun i j => i.2 ≤ j.2
  past : ∀ i ∈ p.idle.items, i.2 ≤ now
  old : ∀ x ∈ p.scavengers, x.id < p.nextScavenger
  empty : p.closed = true ∨ p.dropped = true → p.idle.items = []
  onDuty : p.options.disablePurge = false → p.closed = false → p.dropped = false →
    ∃ x, p.OnDuty now x

theorem Patrolled.of_patrol (hq : q.patrol = p.patrol) (hp : p.Patrolled now) :
    q.Patrolled now := by
  have hpatrol : p.patrol.Patrolled now :=
    ⟨hp.expiry, hp.sorted, hp.past, hp.old, hp.empty, fun hpurge hopen hthere => by
      obtain ⟨x, hx⟩ := hp.onDuty hpurge hopen hthere
      exact ⟨x, hx.own, hx.there, hx.running, hx.kept, hx.soon, hx.inTime⟩⟩
  rw [← hq] at hpatrol
  exact ⟨hpatrol.expiry, hpatrol.sorted, hpatrol.past, hpatrol.old, hpatrol.empty,
    fun hpurge hopen hthere => by
      obtain ⟨x, hx⟩ := hpatrol.onDuty hpurge hopen hthere
      exact ⟨x, hx.own, hx.there, hx.running, hx.kept, hx.soon, hx.inTime⟩⟩

theorem Patrolled.later (hp : p.Patrolled now) {now' : Nat} (hlater : now ≤ now') :
    p.Patrolled now' :=
  { hp with
    past := fun i hi => Nat.le_trans (hp.past i hi) hlater
    onDuty := fun hpurge hopen hthere => by
      obtain ⟨x, hx⟩ := hp.onDuty hpurge hopen hthere
      exact ⟨x, { hx with soon := Nat.le_trans hx.soon (Nat.add_le_add_right hlater _) }⟩ }

theorem Patrolled.counted (hp : p.Patrolled now) (tally : Tally) :
    ({ p with tally := tally } : Pool υ).Patrolled now :=
  { hp with
    onDuty := fun hpurge hopen hthere => by
      obtain ⟨x, hx⟩ := hp.onDuty hpurge hopen hthere
      exact ⟨x, { hx with }⟩ }

theorem Patrolled.resized (hp : p.Patrolled now) {n : Nat} :
    ({ p with capacity := some n } : Pool υ).Patrolled now :=
  { hp with
    onDuty := fun hpurge hopen hthere => by
      obtain ⟨x, hx⟩ := hp.onDuty hpurge hopen hthere
      exact ⟨x, { hx with }⟩ }

/-! ## The list -/

theorem OnDuty.thin {items : List (WorkerId × Nat)} (hx : p.OnDuty now x)
    (hsub : items.Sublist p.idle.items) : (p.withItems items).OnDuty now x :=
  { hx with inTime := fun i hi => hx.inTime i (hsub.subset hi) }

theorem Patrolled.thin {items : List (WorkerId × Nat)} (hp : p.Patrolled now)
    (hsub : items.Sublist p.idle.items) : (p.withItems items).Patrolled now where
  expiry := hp.expiry
  sorted := hp.sorted.sublist hsub
  past i hi := hp.past i (hsub.subset hi)
  old := hp.old
  empty hshut := by
    have hnil := hp.empty hshut
    exact List.sublist_nil.1 (hnil ▸ hsub)
  onDuty hpurge hopen hthere := by
    obtain ⟨x, hx⟩ := hp.onDuty hpurge hopen hthere
    exact ⟨x, hx.thin hsub⟩

/-- Who joins the list does so later than the others on it. -/
theorem Patrolled.join (hp : p.Patrolled now) (hopen : p.closed = false)
    (hthere : p.dropped = false) (w : WorkerId) :
    (p.withItems (p.idle.items ++ [(w, now)])).Patrolled now where
  expiry := hp.expiry
  sorted := List.pairwise_append.2 ⟨hp.sorted, List.pairwise_singleton _ _, fun i hi j hj => by
    obtain rfl := List.mem_singleton.1 hj
    exact hp.past i hi⟩
  past i hi := by
    rcases List.mem_append.1 hi with hi | hi
    · exact hp.past i hi
    · obtain rfl := List.mem_singleton.1 hi
      exact Nat.le_refl _
  old := hp.old
  empty hshut := by
    have hnot : ¬(p.closed = true ∨ p.dropped = true) := by simp [hopen, hthere]
    exact absurd hshut hnot
  onDuty hpurge _ _ := by
    obtain ⟨x, hx⟩ := hp.onDuty hpurge hopen hthere
    refine ⟨x, { hx with inTime := fun i hi => ?_ }⟩
    rcases List.mem_append.1 hi with hi | hi
    · exact hx.inTime i hi
    · obtain rfl := List.mem_singleton.1 hi
      have hsoon : x.nextTick ≤ now + p.options.expiryMillis := hx.soon
      have hexpiry := hp.expiry
      show x.nextTick < now + 2 * p.options.expiryMillis
      omega

/-! ## The turn of a scavenger -/

theorem scavenger?_setScavenger {f : Scavenger → Scavenger} (hf : ∀ x, (f x).id = x.id)
    (p : Pool υ) (s t : ScavengerId) : (p.setScavenger s f).scavenger? t =
      (p.scavenger? t).map fun x => if x.id == s then f x else x := by
  have hid : ((fun x : Scavenger => x.id == t) ∘ fun x => if x.id == s then f x else x) =
      fun x => x.id == t := by
    funext x
    dsimp only [Function.comp]
    split
    · rw [hf]
    · rfl
  simp only [scavenger?, setScavenger, List.find?_map, hid]

theorem map_id_setScavenger {f : Scavenger → Scavenger} (hf : ∀ x, (f x).id = x.id)
    (p : Pool υ) (s : ScavengerId) :
    (p.setScavenger s f).scavengers.map (·.id) = p.scavengers.map (·.id) := by
  simp only [setScavenger, List.map_map]
  refine List.map_congr_left fun x _ => ?_
  dsimp only [Function.comp]
  split
  · exact hf x
  · rfl

theorem Patrolled.old_of_map_id (hp : p.Patrolled now) {scavengers : List Scavenger}
    (hids : scavengers.map (·.id) = p.scavengers.map (·.id)) :
    ∀ x ∈ scavengers, x.id < p.nextScavenger := by
  intro x hx
  have hid : x.id ∈ p.scavengers.map (·.id) := hids ▸ List.mem_map_of_mem hx
  obtain ⟨y, hy, hsame⟩ := List.mem_map.1 hid
  exact hsame ▸ hp.old y hy

/-- What happens to another scavenger does not matter to the one on duty. -/
theorem OnDuty.setScavenger (hx : p.OnDuty now x) {s : ScavengerId} (hne : x.id ≠ s)
    {f : Scavenger → Scavenger} (hf : ∀ x, (f x).id = x.id) :
    (p.setScavenger s f).OnDuty now x :=
  { hx with
    there := by
      have hother : (x.id == s) = false := by simpa using hne
      rw [scavenger?_setScavenger hf, hx.there, Option.map_some, hother]
      rfl }

/-- A scavenger that comes to its end was not the one on duty. -/
theorem Patrolled.endScavenger (hp : p.Patrolled now) {s : ScavengerId}
    (hs : p.scavenger? s = some x)
    (hends : x.cancelled = true ∨ p.closed = true ∨ p.dropped = true) :
    (p.endScavenger s).Patrolled now := by
  refine ⟨hp.expiry, hp.sorted, hp.past,
    hp.old_of_map_id (map_id_setScavenger (by simp) (p.debug "Scavenger stopped.") s), hp.empty,
    fun hpurge hopen hthere => ?_⟩
  obtain ⟨y, hy⟩ := hp.onDuty hpurge hopen hthere
  have hne : y.id ≠ s := by
    rintro rfl
    obtain rfl := Option.some.inj (hs.symm.trans hy.there)
    have hshut : p.closed = false ∧ p.dropped = false := ⟨hopen, hthere⟩
    simp [hy.kept, hshut] at hends
  have hdebug : (p.debug "Scavenger stopped.").OnDuty now y := { hy with }
  exact ⟨y, hdebug.setScavenger hne (by simp)⟩

/-- Nobody on the list has expired when the expired ones are taken off, because it is in order. -/
theorem Patrolled.unexpired (hp : p.Patrolled now) {i : WorkerId × Nat}
    (hi : i ∈ p.unexpired now) : now < i.2 + p.options.expiryMillis :=
  IdleList.unexpired_of_sorted hp.sorted hi

theorem OnDuty.tick_other (hx : p.OnDuty now x) {s : ScavengerId} (hne : x.id ≠ s) (next : Nat) :
    ((p.setScavenger s fun y => { y with nextTick := next }).withItems
      (p.unexpired now)).OnDuty now x :=
  (hx.setScavenger hne (by simp)).thin (List.dropWhile_sublist _)

/-- After its tick the scavenger on duty comes in time for whoever is still listed. -/
theorem OnDuty.tick (hx : p.OnDuty now x) (hp : p.Patrolled now) (hdue : x.nextTick ≤ now) :
    ((p.setScavenger x.id fun y =>
        { y with nextTick := x.nextTick + p.options.expiryMillis }).withItems
      (p.unexpired now)).OnDuty now { x with nextTick := x.nextTick + p.options.expiryMillis } where
  own := hx.own
  there := by
    show (p.setScavenger x.id _).scavenger? x.id = _
    rw [scavenger?_setScavenger (by simp), hx.there]
    simp
  running := hx.running
  kept := hx.kept
  soon := Nat.add_le_add_right hdue _
  inTime i hi := by
    have hkept : now < i.2 + p.options.expiryMillis := hp.unexpired hi
    show x.nextTick + p.options.expiryMillis < i.2 + 2 * p.options.expiryMillis
    omega

theorem Patrolled.tick (hp : p.Patrolled now) {s : ScavengerId} (hs : p.scavenger? s = some x)
    (hdue : x.nextTick ≤ now) :
    ((p.setScavenger s fun y =>
        { y with nextTick := x.nextTick + p.options.expiryMillis }).withItems
      (p.unexpired now)).Patrolled now := by
  have hid : x.id = s := by simpa using List.find?_some hs
  subst hid
  have hthin := hp.thin (List.dropWhile_sublist (l := p.idle.items) fun i =>
    IdleList.expired p.options.expiryMillis now i.2)
  refine ⟨hp.expiry, hthin.sorted, hthin.past,
    hp.old_of_map_id (map_id_setScavenger (by simp) p x.id), hthin.empty,
    fun hpurge hopen hthere => ?_⟩
  obtain ⟨y, hy⟩ := hp.onDuty hpurge hopen hthere
  by_cases hne : y.id = x.id
  · obtain rfl : y = x := Option.some.inj (hy.there.symm.trans (hne ▸ hs))
    exact ⟨_, hy.tick hp hdue⟩
  · exact ⟨y, hy.tick_other hne _⟩

/-! ## Opening and closing -/

theorem Patrolled.withRetired (hp : p.Patrolled now) (hclosed : p.closed = true) :
    p.withRetired.Patrolled now :=
  { hp with
    old := hp.old_of_map_id (map_id_relieved p)
    onDuty := fun _ hopen _ => absurd (hclosed.symm.trans hopen) (by simp) }

/-- Nobody is on the list of a pool that was closed. -/
theorem Patrolled.shutDown (hp : p.Patrolled now) : p.shutDown.Patrolled now where
  expiry := hp.expiry
  sorted := List.Pairwise.nil
  past i hi := absurd hi List.not_mem_nil
  old := hp.old_of_map_id (map_id_relieved p)
  empty _ := rfl
  onDuty _ hopen _ := by cases hopen

theorem Patrolled.drop (hp : p.Patrolled now) :
    ({ p.withRetired.withItems [] with dropped := true } : Pool υ).Patrolled now where
  expiry := hp.expiry
  sorted := List.Pairwise.nil
  past i hi := absurd hi List.not_mem_nil
  old := hp.old_of_map_id (map_id_relieved p)
  empty _ := rfl
  onDuty _ _ hthere := by cases hthere

theorem patrolled_of_empty (hexpiry : 0 < p.options.expiryMillis) (hempty : p.idle.items = [])
    (hold : ∀ x ∈ p.scavengers, x.id < p.nextScavenger)
    (honDuty : p.options.disablePurge = false → ∃ x, p.OnDuty now x) : p.Patrolled now where
  expiry := hexpiry
  sorted := by rw [hempty]; exact .nil
  past i hi := by simp [hempty] at hi
  old := hold
  empty _ := hempty
  onDuty hpurge _ _ := honDuty hpurge

/-- A scavenger that is started goes on duty. Nobody is listed then. -/
theorem patrolled_startScavenger (hexpiry : 0 < p.options.expiryMillis)
    (hempty : p.idle.items = []) (hold : ∀ x ∈ p.scavengers, x.id < p.nextScavenger) :
    (p.startScavenger now).Patrolled now := by
  rcases patrol_startScavenger p now with ⟨hdisabled, hsame⟩ | hstarted
  · rw [hsame]
    exact patrolled_of_empty hexpiry hempty hold fun hpurge => by simp [hdisabled] at hpurge
  · have hold' : ∀ x ∈ p.relieved, x.id < p.nextScavenger := by
      intro x hx
      have hid : x.id ∈ p.scavengers.map (·.id) := map_id_relieved p ▸ List.mem_map_of_mem hx
      obtain ⟨y, hy, hsame⟩ := List.mem_map.1 hid
      exact hsame ▸ hold y hy
    have hnew : p.relieved.find? (·.id == p.nextScavenger) = none :=
      List.find?_eq_none.2 fun x hx => by simpa using Nat.ne_of_lt (hold' x hx)
    refine Patrolled.of_patrol hstarted (patrolled_of_empty hexpiry hempty ?_ fun _ =>
      ⟨⟨p.nextScavenger, now + p.options.expiryMillis, false, .running⟩, ?_⟩)
    · intro x hx
      rcases List.mem_append.1 hx with hx | hx
      · exact Nat.lt_succ_of_lt (hold' x hx)
      · obtain rfl := List.mem_singleton.1 hx
        exact Nat.lt_succ_self _
    · refine ⟨rfl, ?_, rfl, rfl, Nat.le_refl _, fun i hi => ?_⟩
      · show List.find? _ (p.relieved ++ _) = _
        rw [List.find?_append, hnew]
        simp
      · have hi : i ∈ p.idle.items := hi
        simp [hempty] at hi

/-! ## What happens to a pool -/

theorem patrolled_create (c : Option Nat) (options : PoolOptions) (now : Nat) :
    (create c options now : Pool υ).Patrolled now := by
  have hexpiry : 0 < options.normalized.expiryMillis := by
    unfold PoolOptions.normalized
    split
    · show 0 < PoolOptions.defaultExpiry.ceilMillis
      decide
    · rename_i hexpiry
      have hpos : options.expiry.nanos ≠ 0 := by simpa [Duration.isZero] using hexpiry
      show 0 < (options.expiry.nanos + 999999) / 1000000
      omega
  unfold create
  refine Patrolled.of_patrol (patrol_debug _ _ _) ?_
  exact patrolled_startScavenger hexpiry rfl (by simp)

/-- Whatever happens to a pool, other than that a task is dropped, leaves a scavenger on duty : a
release with a deadline does not take it away from a pool that stays open. -/
theorem Patrolled.perform (hp : p.Patrolled now) {h : List (Occurrence (Pool υ) (PoolEvent υ))}
    {e : PoolEvent υ} (hall : Pool.allows h p e = true) (htime : ∀ t ∈ e.time?, t = now)
    (hkept : e.dropsTask = false) : (p.perform e).1.Patrolled now := by
  have hrounds := rounds_perform p hkept
  generalize (p.perform e).1 = q at hrounds
  cases hrounds with
  | thins hsub hpatrol => exact (hp.thin hsub).of_patrol hpatrol
  | @joins w t _ hopen hthere hpatrol =>
    obtain rfl : t = now := htime t rfl
    exact (hp.join hopen hthere w).of_patrol hpatrol
  | ends hs hends => exact hp.endScavenger hs hends
  | @ticks s t x hs hdue =>
    obtain rfl : t = now := htime t rfl
    exact ((hp.tick hs hdue).counted _).of_patrol (patrol_purge _ t)
  | resizes hpatrol => exact hp.resized.of_patrol hpatrol
  | retires hfails hpatrol =>
    cases hopen : p.closed with
    | true => exact (hp.withRetired hopen).of_patrol hpatrol
    | false =>
      obtain ⟨⟨t, timeout, rfl⟩, hpurge, hnone⟩ := hfails.resolve_left (by simp [hopen])
      have hthere : p.dropped = false := by simpa [Pool.allows] using hall
      obtain ⟨x, hx⟩ := hp.onDuty hpurge hopen hthere
      exact absurd (hnone.symm.trans hx.own) (by simp)
  | shuts hpatrol => exact hp.shutDown.of_patrol hpatrol
  | @opens t _ hclosed hpatrol =>
    obtain rfl : t = now := htime t rfl
    exact (patrolled_startScavenger (p := { p with closed := false }) hp.expiry
      (hp.empty (.inl hclosed)) hp.old).of_patrol hpatrol
  | goes hpatrol => exact hp.drop.of_patrol hpatrol

end Pool

end Overseer
