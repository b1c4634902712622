import Overseer.Proofs.Pool.Closed
import Overseer.Proofs.Pool.Duty

/-!
# A pool without anybody left

A release with a deadline looks at two things: at the slots that are taken, and at the flag that the
scavenger which it stopped sets as it comes to its end. An open pool has such a scavenger, unless
it never purges, whatever was dropped (`guarded_of_run`), so that a release of an open pool never
fails (`beginRelease_of_open`).

Nobody is alive if there is no worker and that scavenger does not run any more (`isVacated`). That
is what both signs say (`isOver_iff`), unless somebody is missing: a worker that was dropped before
its first turn, or that scavenger if it was dropped before its end (`hasMissing`).
-/

namespace Overseer

namespace Pool

variable {υ : Type} {p q : Pool υ} {h : List (Occurrence (Pool υ) (PoolEvent υ))}
  {s? : Option ScavengerId}

/-! ## The scavenger of an open pool -/

/-- Every scavenger that the pool has had. -/
def roster (p : Pool υ) : List ScavengerId := p.scavengers.map (·.id)

/-- The scavenger of a pool is on its roster, and an open pool that purges has one. -/
structure Guarded (p : Pool υ) : Prop where
  known : ∀ s ∈ p.scavenger, s ∈ p.roster
  there : p.options.disablePurge = false → p.closed = false → p.dropped = false →
    p.scavenger.isSome = true

theorem roster_of_patrol (hq : q.patrol = p.patrol) : q.roster = p.roster :=
  eq_of_patrol (fun _ => rfl) hq

theorem dropped_of_patrol (hq : q.patrol = p.patrol) : q.dropped = p.dropped :=
  eq_of_patrol (fun _ => rfl) hq

theorem Guarded.of_patrol (hq : q.patrol = p.patrol) (hp : p.Guarded) : q.Guarded := by
  have hpatrol : p.patrol.Guarded := ⟨hp.known, hp.there⟩
  rw [← hq] at hpatrol
  exact ⟨hpatrol.known, hpatrol.there⟩

theorem guarded_of_none (hnone : p.scavenger = none) (hshut : p.closed = true ∨ p.dropped = true) :
    p.Guarded :=
  ⟨fun s hs => by simp [hnone] at hs, fun _ hopen hthere => by simp [hopen, hthere] at hshut⟩

theorem patrol_killWorker (p : Pool υ) (w : WorkerId) : (p.killWorker w).patrol = p.patrol := by
  unfold killWorker
  split
  · rfl
  · split
    · rfl
    · rw [patrol_freeSlot, patrol_removeWorker]

/-- The pool is guarded after an event, and no scavenger has left the roster. -/
structure Relieves (p q : Pool υ) : Prop where
  guarded : q.Guarded
  roster : p.roster ⊆ q.roster

theorem Relieves.of_patrol {r : Pool υ} (hq : q.patrol = r.patrol) (hr : p.Relieves r) :
    p.Relieves q :=
  ⟨hr.guarded.of_patrol hq, (roster_of_patrol hq).symm ▸ hr.roster⟩

theorem Guarded.same (hp : p.Guarded) (hscavenger : q.scavenger = p.scavenger)
    (hroster : q.roster = p.roster) (hoptions : q.options = p.options)
    (hclosed : q.closed = p.closed) (hdropped : q.dropped = p.dropped) : p.Relieves q := by
  refine ⟨⟨fun s hs => ?_, fun hpurge hopen hthere => ?_⟩, fun s hs => hroster ▸ hs⟩
  · rw [hroster]
    exact hp.known s (hscavenger ▸ hs)
  · rw [hscavenger]
    exact hp.there (hoptions ▸ hpurge) (hclosed ▸ hopen) (hdropped ▸ hthere)

theorem relieves_of_none (hnone : q.scavenger = none) (hshut : q.closed = true ∨ q.dropped = true)
    (hroster : q.roster = p.roster) : p.Relieves q :=
  ⟨guarded_of_none hnone hshut, fun _ hs => hroster ▸ hs⟩

/-- Whatever became of the last scavenger, a new one guards the pool. -/
theorem relieves_startScavenger (hknown : ∀ s ∈ p.scavenger, s ∈ p.roster) (now : Nat) :
    p.Relieves (p.startScavenger now) := by
  rcases patrol_startScavenger p now with ⟨hdisabled, hsame⟩ | hstarted
  · rw [hsame]
    exact ⟨⟨hknown, fun hpurge => by simp [hdisabled] at hpurge⟩, fun _ hs => hs⟩
  · have hroster : (p.startScavenger now).roster = p.roster ++ [p.nextScavenger] := by
      rw [roster_of_patrol hstarted]
      simp [roster, map_id_relieved]
    have hscavenger : (p.startScavenger now).scavenger = some p.nextScavenger := by
      have hsame := congrArg scavenger hstarted
      exact hsame
    refine ⟨⟨fun s hs => ?_, fun _ _ _ => by simp [hscavenger]⟩, fun s hs => ?_⟩
    · rw [hscavenger, Option.mem_some_iff] at hs
      simp [hroster, hs]
    · rw [hroster]
      exact List.mem_append_left _ hs

/-- Whatever happens, an open pool keeps its scavenger, or gets another. -/
theorem Guarded.perform (hp : p.Guarded) (e : PoolEvent υ) : p.Relieves (p.perform e).1 := by
  cases hkept : e.dropsTask with
  | true =>
    cases e with
    | killWorker w => exact .of_patrol (patrol_killWorker p w) (hp.same rfl rfl rfl rfl rfl)
    | killScavenger s =>
      exact hp.same rfl (map_id_setScavenger (fun x => by split <;> rfl) p s) rfl rfl rfl
    | _ => contradiction
  | false =>
    have hrounds := rounds_perform p hkept
    generalize (p.perform e).1 = q at hrounds
    cases hrounds with
    | thins _ hpatrol => exact .of_patrol hpatrol (hp.same rfl rfl rfl rfl rfl)
    | joins _ _ hpatrol => exact .of_patrol hpatrol (hp.same rfl rfl rfl rfl rfl)
    | @ends s _ _ _ _ =>
      have hroster := map_id_setScavenger (f := fun y => { y with phase := .ended })
        (fun _ => rfl) p s
      exact hp.same rfl hroster rfl rfl rfl
    | @ticks s _ x _ _ =>
      have hroster := map_id_setScavenger
        (f := fun y => { y with nextTick := x.nextTick + p.options.expiryMillis })
        (fun _ => rfl) p s
      exact .of_patrol (patrol_purge _ _) (hp.same rfl hroster rfl rfl rfl)
    | resizes hpatrol => exact .of_patrol hpatrol (hp.same rfl rfl rfl rfl rfl)
    | retires hfails hpatrol =>
      refine .of_patrol hpatrol (relieves_of_none rfl ?_ (map_id_relieved p))
      rcases hfails with hclosed | ⟨-, hpurge, hnone⟩
      · exact .inl hclosed
      · by_contra hshut
        simp only [not_or, Bool.not_eq_true] at hshut
        have hthere := hp.there hpurge hshut.1 hshut.2
        simp [hnone] at hthere
    | shuts hpatrol =>
      exact .of_patrol hpatrol (relieves_of_none rfl (.inl rfl) (map_id_relieved p))
    | @opens now _ _ hpatrol =>
      have hstarted := relieves_startScavenger (p := { p with closed := false }) hp.known now
      exact .of_patrol hpatrol ⟨hstarted.guarded, hstarted.roster⟩
    | goes hpatrol =>
      exact .of_patrol hpatrol (relieves_of_none rfl (.inr rfl) (map_id_relieved p))

theorem guarded_of_run (hrun : (poolSystem υ).Run h p) : p.Guarded := by
  induction hrun with
  | start hs =>
    obtain ⟨capacity, options, now, p₀, hnew, rfl⟩ := hs
    obtain ⟨c, rfl⟩ := exists_eq_create hnew
    have hstarted := relieves_startScavenger (p := {
      options := options.normalized
      capacity := c
      idle := { discipline :=
        if options.normalized.prealloc then .ring (c.getD 0) else .stack } }) (υ := υ)
      (fun s hs => by simp at hs) now
    refine hstarted.guarded.of_patrol ?_
    rw [patrol_collect, create, patrol_debug]
  | @next h p e _ _ ih => exact (ih.perform e).guarded.of_patrol (patrol_collect _)

/-- Only the owner lets a pool go. -/
theorem dropped_perform (p : Pool υ) {e : PoolEvent υ} (hheld : e ≠ .drop) :
    (p.perform e).1.dropped = p.dropped := by
  cases hkept : e.dropsTask with
  | true =>
    cases e with
    | killWorker w => exact dropped_of_patrol (patrol_killWorker p w)
    | killScavenger s => rfl
    | _ => contradiction
  | false =>
    have hrounds := rounds_perform p hkept
    generalize (p.perform e).1 = q at hrounds
    cases hrounds with
    | ends _ _ => rfl
    | ticks _ _ => exact (dropped_of_patrol (patrol_purge _ _)).trans rfl
    | @opens now _ _ hpatrol =>
      have hstarted := congrArg Floor.dropped
        (floor_startScavenger ({ p with closed := false } : Pool υ) now)
      exact (dropped_of_patrol hpatrol).trans hstarted
    | goes _ => contradiction
    | thins _ hpatrol => exact (dropped_of_patrol hpatrol).trans rfl
    | joins _ _ hpatrol => exact (dropped_of_patrol hpatrol).trans rfl
    | resizes hpatrol => exact (dropped_of_patrol hpatrol).trans rfl
    | retires _ hpatrol => exact (dropped_of_patrol hpatrol).trans rfl
    | shuts hpatrol => exact (dropped_of_patrol hpatrol).trans rfl

/-! ## The signs that a release waits for -/

/-- Is nobody alive any more, no worker and not this scavenger? -/
def isVacated (p : Pool υ) (s? : Option ScavengerId) : Bool :=
  p.workers.isEmpty && s?.all fun s => (p.scavenger? s).all (·.phase != .running)

/-- Is somebody missing who will never give notice: a worker that was dropped before its first
turn, or this scavenger, dropped before its end? -/
def hasMissing (h : List (Occurrence (Pool υ) (PoolEvent υ))) (p : Pool υ)
    (s? : Option ScavengerId) : Bool :=
  h.any vanishes || s?.any fun s => (p.scavenger? s).any (·.phase == .lost)

theorem hasEnded_eq (hknown : ∀ s ∈ s?, s ∈ p.roster) : p.hasEnded s? =
    ((s?.all fun s => (p.scavenger? s).all (·.phase != .running)) &&
      !(s?.any fun s => (p.scavenger? s).any (·.phase == .lost))) := by
  cases s? with
  | none => rfl
  | some s =>
    have hsome : (p.scavenger? s).isSome = true := by
      obtain ⟨x, hx, hid⟩ := List.mem_map.1 (hknown s rfl)
      exact List.find?_isSome.2 ⟨x, hx, by simpa using hid⟩
    obtain ⟨x, hx⟩ := Option.isSome_iff_exists.1 hsome
    simp only [hasEnded, Option.all_some, Option.any_some, hx]
    cases x.phase <;> rfl

/-- Both signs are there exactly if nobody is alive and nobody is missing. -/
theorem isOver_iff (hrun : (poolSystem υ).Run h p) (hd : p.dropped = false)
    (hknown : ∀ s ∈ s?, s ∈ p.roster) : (p.running == 0 && p.hasEnded s?) =
      (p.isVacated s? && !hasMissing h p s?) := by
  have hslots : (p.running == 0) = (p.workers.isEmpty && !h.any vanishes) := by
    rw [slots_of_run hrun hd, Bool.eq_iff_iff]
    simp [List.countP_eq_zero, List.isEmpty_iff]
  rw [hasEnded_eq hknown, hslots, isVacated, hasMissing]
  cases p.workers.isEmpty <;> simp [Bool.and_left_comm]

end Pool

end Overseer
