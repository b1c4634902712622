import Overseer.Proofs.Pool.Bench

/-!
# What a scavenger sees of a pool

The `patrol` of a pool is what its scavengers look at and change: the list of idle workers with the
stamps, the scavengers themselves, the options and the capacity, whether the pool is open, and the
number of evictions. Most of what happens to a pool leaves it as it is, or takes somebody off the
list. `Rounds` has one case for each of the others: a worker that joins the list, the turn of a
scavenger, a new capacity, a release, a reboot, and the end of the pool.
-/

namespace Overseer

namespace IdleList

variable {α : Type}

/-- Who is left after somebody was handed out is in the order in which they were. -/
theorem rest_of_detachLive (live : α → Bool) (l : IdleList α) :
    ∃ items, items.Sublist l.items ∧ (l.detachLive live).2.2 = { l with items := items } := by
  have hrest : ∀ rest : List (α × Nat), rest.Sublist l.inOrder →
      ∃ items, items.Sublist l.items ∧ l.withOrder rest = { l with items := items } := by
    intro rest hsub
    unfold withOrder
    unfold inOrder at hsub
    split at hsub
    · exact ⟨rest.reverse, List.reverse_reverse l.items ▸ hsub.reverse, rfl⟩
    · exact ⟨rest, hsub, rfl⟩
  unfold detachLive
  split
  · exact hrest [] (List.nil_sublist _)
  · rename_i a since rest heq
    have hkept : ((a, since) :: rest).Sublist l.inOrder := heq ▸ List.dropWhile_sublist _
    exact hrest rest ((List.sublist_cons_self _ _).trans hkept)

theorem insert?_eq {l l' : IdleList α} {a : α} {now : Nat} (h : l.insert? a now = some l') :
    l' = { l with items := l.items ++ [(a, now)] } := by
  unfold insert? at h
  split at h
  · exact (Option.some.inj h).symm
  · contradiction

end IdleList

/-- Is the task of a worker or of a scavenger dropped? Only the end of a runtime does that. -/
def PoolEvent.dropsTask {υ : Type} : PoolEvent υ → Bool
  | .killWorker _ | .killScavenger _ => true
  | _ => false

namespace Pool

variable {υ : Type} {p q : Pool υ}

/-- A pool without workers, callers and slots, and of what it counts only the evictions. -/
def patrol (p : Pool υ) : Pool υ :=
  { p with
    running := 0, waiting := 0, notifier := {}, nextWorker := 0
    tally := { evicted := p.tally.evicted }, workers := [], callers := [], notices := [] }

/-- What does not look at workers, callers and slots is a matter of the patrol. -/
theorem eq_of_patrol {α : Type} {f : Pool υ → α} (hf : ∀ p, f p.patrol = f p)
    (hq : q.patrol = p.patrol) : f q = f p := by
  rw [← hf q, hq, hf p]

@[simp] theorem patrol_debug (p : Pool υ) (m : String) (fs : List (String × Field)) :
    (p.debug m fs).patrol = p.patrol := rfl

@[simp] theorem patrol_notifyOne (p : Pool υ) : p.notifyOne.patrol = p.patrol := by
  unfold notifyOne
  dsimp only
  split <;> rfl

@[simp] theorem patrol_notifyAll (p : Pool υ) : p.notifyAll.patrol = p.patrol := rfl

@[simp] theorem patrol_setPhase (p : Pool υ) (w : WorkerId) (x : WorkerPhase υ)
    (inbox : List (Message υ)) : (p.setPhase w x inbox).patrol = p.patrol := rfl

@[simp] theorem patrol_removeWorker (p : Pool υ) (w : WorkerId) :
    (p.removeWorker w).patrol = p.patrol := rfl

@[simp] theorem patrol_send (p : Pool υ) (w : WorkerId) (m : Message υ) :
    (p.send w m).patrol = p.patrol := by
  unfold send
  split <;> rfl

@[simp] theorem patrol_spawn (p : Pool υ) (u : υ) : (p.spawn u).patrol = p.patrol := rfl

@[simp] theorem patrol_reject (p : Pool υ) : p.reject.patrol = p.patrol := rfl

@[simp] theorem patrol_park (p : Pool υ) (c : CallerId) (u : υ) :
    (p.park c u).patrol = p.patrol := rfl

@[simp] theorem patrol_collect (p : Pool υ) : p.collect.2.patrol = p.patrol := rfl

/-- What leaves the patrol as it is does so however often it is done. -/
theorem patrol_foldl {g : Pool υ → WorkerId → Pool υ} (hg : ∀ p w, (g p w).patrol = p.patrol)
    (ws : List WorkerId) (p : Pool υ) : (ws.foldl g p).patrol = p.patrol := by
  induction ws generalizing p with
  | nil => rfl
  | cons w ws ih => rw [List.foldl_cons, ih, hg]

@[simp] theorem patrol_stopAll (p : Pool υ) (ws : List WorkerId) :
    (p.stopAll ws).patrol = p.patrol :=
  patrol_foldl (fun p w => patrol_send p w .stop) ws p

@[simp] theorem patrol_discard (p : Pool υ) (ws : List WorkerId) :
    (p.discard ws).patrol = p.patrol :=
  patrol_foldl (fun p w => patrol_debug p "Discarding dead idle worker." [workerField w]) ws p

@[simp] theorem patrol_freeSlot (p : Pool υ) : p.freeSlot.patrol = p.patrol := by
  unfold freeSlot
  split
  · rfl
  · rw [patrol_notifyOne]
    rfl

@[simp] theorem patrol_exit (p : Pool υ) (w : WorkerId) : (p.exit w).patrol = p.patrol := by
  unfold exit
  rw [patrol_freeSlot, patrol_removeWorker, patrol_debug]

@[simp] theorem patrol_abandon (p : Pool υ) (c : CallerId) : (p.abandon c).patrol = p.patrol := by
  unfold abandon
  split <;> rfl

@[simp] theorem patrol_pollWorker (p : Pool υ) (w : WorkerId) :
    (p.pollWorker w).1.patrol = p.patrol := by
  unfold pollWorker
  split
  · rfl
  · split
    · rfl
    · rfl
    · exact patrol_exit p w
    · rfl
    · rfl

@[simp] theorem patrol_reportPanic (p : Pool υ) (w : WorkerId) (payload : Payload) :
    (p.reportPanic w payload).patrol = p.patrol := by
  unfold reportPanic
  dsimp only
  split <;> rfl

@[simp] theorem patrol_crash (p : Pool υ) (w : WorkerId) (payload : Payload) :
    (p.crash w payload).patrol = p.patrol := by
  unfold crash
  rw [patrol_exit]
  split
  · rfl
  · exact patrol_reportPanic p w payload

theorem patrol_tune (p : Pool υ) (size : Int) : (p.tune size).patrol = p.patrol ∨
    ∃ n, (p.tune size).patrol = ({ p with capacity := some n } : Pool υ).patrol := by
  unfold tune
  split
  · exact .inl rfl
  · split
    · exact .inl rfl
    · refine .inr ⟨size.toNat, ?_⟩
      dsimp only
      split
      · rfl
      · split
        · exact patrol_notifyOne _
        · rfl

/-! ## Events that change the list -/

/-- A pool with other items on its list. -/
def withItems (p : Pool υ) (items : List (WorkerId × Nat)) : Pool υ :=
  { p with idle := { p.idle with items := items } }

theorem patrol_attempt (p : Pool υ) (c : CallerId) (u : υ) : ∃ items,
    items.Sublist p.idle.items ∧ (p.attempt c u).1.patrol = (p.withItems items).patrol := by
  obtain ⟨items, hsub, hrest⟩ := p.idle.rest_of_detachLive p.isAlive
  unfold attempt
  split
  · exact ⟨p.idle.items, .refl _, rfl⟩
  · refine ⟨items, hsub, ?_⟩
    generalize p.idle.detachLive p.isAlive = detached at hrest
    obtain ⟨dead, live, rest⟩ := detached
    obtain rfl : rest = _ := hrest
    have hlist := patrol_discard (p.withItems items) dead
    cases live with
    | some w => exact (patrol_send ..).trans hlist
    | none =>
      dsimp only
      split
      · exact (patrol_spawn ..).trans hlist
      · split
        · exact (patrol_park ..).trans hlist
        · exact (patrol_reject _).trans hlist

theorem patrol_resume (p : Pool υ) (c : CallerId) :
    ∃ items, items.Sublist p.idle.items ∧ (p.resume c).1.patrol = (p.withItems items).patrol :=
  keeps_resume (P := fun q => ∃ items, items.Sublist p.idle.items ∧
    q.patrol = (p.withItems items).patrol) ⟨p.idle.items, .refl _, rfl⟩ c
    fun u => patrol_attempt (p.unpark c) c u

/-- A worker that has ended its unit exits, or joins the list of an open pool. -/
theorem patrol_complete (p : Pool υ) (w : WorkerId) (now : Nat) :
    (p.complete w now).patrol = p.patrol ∨ p.closed = false ∧ p.dropped = false ∧
      (p.complete w now).patrol = (p.withItems (p.idle.items ++ [(w, now)])).patrol := by
  unfold complete
  split
  · exact .inl (patrol_exit p w)
  · rename_i hthere
    split
    · rw [patrol_exit, patrol_notifyAll]
      exact .inl rfl
    · rename_i hkept
      simp only [Bool.or_eq_true, not_or, Bool.not_eq_true] at hthere hkept
      split
      · exact .inl (patrol_exit p w)
      · rename_i idle hidle
        obtain rfl := IdleList.insert?_eq hidle
        refine .inr ⟨hkept.2, hthere, ?_⟩
        rw [patrol_notifyOne, patrol_setPhase]
        rfl

/-! ## The turn of a scavenger -/

/-- The items that stay on the list when the expired ones are taken off. -/
def unexpired (p : Pool υ) (now : Nat) : List (WorkerId × Nat) :=
  p.idle.items.dropWhile fun x => IdleList.expired p.options.expiryMillis now x.2

/-- The workers that a purge tells to exit. -/
def expired (p : Pool υ) (now : Nat) : List WorkerId :=
  (p.idle.expire p.options.expiryMillis now).1

theorem patrol_purge (p : Pool υ) (now : Nat) : (p.purge now).patrol =
    ({ p.withItems (p.unexpired now) with
      tally := { p.tally with evicted := p.tally.evicted + (p.expired now).length } } :
        Pool υ).patrol := by
  have hwoken : ∀ q : Pool υ,
      (if q.running == 0 || (0 < q.waiting && 0 < q.free) then q.notifyAll else q).patrol =
        q.patrol := by
    intro q
    split
    · exact patrol_notifyAll q
    · rfl
  unfold purge
  dsimp only
  rw [hwoken]
  split
  · rename_i hnobody
    have hnone : (p.expired now).length = 0 :=
      List.length_eq_zero_iff.2 (List.isEmpty_iff.1 hnobody)
    rw [hnone]
    rfl
  · rw [patrol_foldl fun q w => by simp]
    rfl

/-- A scavenger that has a turn has nothing to do, comes to its end, or has its tick. -/
theorem pollScavenger_cases (p : Pool υ) (s : ScavengerId) (now : Nat) :
    (p.pollScavenger s now).1 = p ∨
    (∃ x, p.scavenger? s = some x ∧ (x.cancelled = true ∨ p.closed = true ∨ p.dropped = true) ∧
      (p.pollScavenger s now).1 = p.endScavenger s) ∨
    ∃ x, p.scavenger? s = some x ∧ x.nextTick ≤ now ∧
      (p.pollScavenger s now).1 = (p.setScavenger s fun y =>
        { y with nextTick := x.nextTick + p.options.expiryMillis }).purge now := by
  unfold pollScavenger
  split
  · exact .inl rfl
  · rename_i x hs
    split
    · exact .inl rfl
    · split
      · rename_i hcancelled
        exact .inr (.inl ⟨x, hs, .inl hcancelled, rfl⟩)
      · split
        · exact .inl rfl
        · rename_i hdue
          split
          · rename_i hshut
            exact .inr (.inl ⟨x, hs, .inr (by simpa [or_comm] using hshut), rfl⟩)
          · exact .inr (.inr ⟨x, hs, Nat.not_lt.1 hdue, rfl⟩)

/-! ## Opening and closing -/

/-- The scavengers of a pool, with its own cancelled. -/
def relieved (p : Pool υ) : List Scavenger :=
  p.scavengers.map fun x => if p.scavenger = some x.id then { x with cancelled := true } else x

theorem map_id_relieved (p : Pool υ) : p.relieved.map (·.id) = p.scavengers.map (·.id) := by
  unfold relieved
  rw [List.map_map]
  refine List.map_congr_left fun x _ => ?_
  dsimp only [Function.comp]
  split <;> rfl

/-- A pool that has cancelled its scavenger and has none. -/
def withRetired (p : Pool υ) : Pool υ := { p with scavenger := none, scavengers := p.relieved }

/-- A scavenger that is taken out of the pool is still there. -/
theorem patrol_takeScavenger (p : Pool υ) : p.takeScavenger.1.patrol = p.withRetired.patrol := by
  have hrelieved : ∀ s, p.scavenger = some s →
      p.scavengers.map (fun x => if x.id == s then { x with cancelled := true } else x) =
        p.relieved := by
    intro s hs
    refine List.map_congr_left fun x _ => ?_
    by_cases hx : s = x.id
    · simp [hs, hx]
    · simp [hs, hx, Ne.symm hx]
  unfold takeScavenger
  split
  · rename_i hnone
    have hkept : p.relieved = p.scavengers := by simp [relieved, hnone]
    rw [withRetired, hkept, ← hnone]
  · rename_i s hs
    rw [withRetired, ← hrelieved s hs]
    rfl

/-- A closed pool, with nobody on its list and no scavenger of its own. -/
def shutDown (p : Pool υ) : Pool υ := { p.withRetired.withItems [] with closed := true }

/-- To close a pool empties its list. -/
theorem patrol_close (hq : q.patrol = p.withRetired.patrol) (hopen : p.closed = false) :
    q.close.patrol = p.shutDown.patrol := by
  have hclosed : q.closed = false := (congrArg closed hq).trans hopen
  have hempty : ({ q.withItems [] with closed := true } : Pool υ).patrol =
      ({ q.patrol.withItems [] with closed := true } : Pool υ).patrol := rfl
  unfold close
  rw [hclosed, if_neg (by simp)]
  dsimp only
  rw [patrol_notifyAll, patrol_stopAll]
  refine hempty.trans ?_
  rw [hq]
  rfl

/-- A release leaves a closed pool as it is, but for the scavenger. -/
theorem patrol_release (p : Pool υ) :
    p.closed = true ∧ p.release.patrol = p.withRetired.patrol ∨
      p.closed = false ∧ p.release.patrol = p.shutDown.patrol := by
  have htaken := patrol_takeScavenger p
  unfold release
  generalize p.takeScavenger = taken at htaken
  obtain ⟨q, s⟩ := taken
  dsimp only at htaken ⊢
  have hclosed := congrArg closed htaken
  change q.closed = p.closed at hclosed
  rw [hclosed]
  cases hopen : p.closed with
  | true => exact .inl ⟨rfl, htaken⟩
  | false => exact .inr ⟨rfl, patrol_close htaken hopen⟩

/-- A release with a deadline fails if the pool is closed, or has lost its scavenger. -/
theorem patrol_beginRelease (p : Pool υ) (now : Nat) (timeout : Duration) :
    (p.closed = true ∨ p.options.disablePurge = false ∧ p.scavenger = none) ∧
        (p.beginRelease now timeout).1.patrol = p.withRetired.patrol ∨
      p.closed = false ∧ (p.beginRelease now timeout).1.patrol = p.shutDown.patrol := by
  have htaken := patrol_takeScavenger p
  have hnone : p.takeScavenger.2 = p.scavenger := by
    unfold takeScavenger
    split
    · rename_i hnone
      exact hnone.symm
    · rename_i s hs
      exact hs.symm
  unfold beginRelease
  generalize p.takeScavenger = taken at htaken hnone
  obtain ⟨q, s⟩ := taken
  dsimp only at htaken hnone ⊢
  have hclosed := congrArg closed htaken
  change q.closed = p.closed at hclosed
  have hoptions := congrArg options htaken
  change q.options = p.options at hoptions
  rw [hclosed, hoptions, hnone]
  split
  · rename_i hfails
    refine .inl ⟨?_, htaken⟩
    simpa using hfails
  · rename_i hopen
    simp only [Bool.or_eq_true, not_or, Bool.not_eq_true] at hopen
    exact .inr ⟨hopen.1, patrol_close htaken hopen.1⟩

/-- A new scavenger first looks at the list when the expiry is over. -/
theorem patrol_startScavenger (p : Pool υ) (now : Nat) :
    p.options.disablePurge = true ∧ p.startScavenger now = p ∨
    (p.startScavenger now).patrol = ({ p with
      scavenger := some p.nextScavenger
      nextScavenger := p.nextScavenger + 1
      scavengers := p.relieved ++
        [{ id := p.nextScavenger, nextTick := now + p.options.expiryMillis }] } :
          Pool υ).patrol := by
  have htaken := patrol_takeScavenger p
  unfold startScavenger
  split
  · rename_i hdisabled
    exact .inl ⟨hdisabled, rfl⟩
  · refine .inr ?_
    generalize p.takeScavenger = taken at htaken
    obtain ⟨q, s⟩ := taken
    dsimp only at htaken ⊢
    have hstarted : ∀ q : Pool υ, ({ q with
        scavenger := some q.nextScavenger
        nextScavenger := q.nextScavenger + 1
        scavengers := q.scavengers ++
          [{ id := q.nextScavenger, nextTick := now + q.options.expiryMillis }]
        notices := q.notices ++ [.spawnScavenger q.nextScavenger] } : Pool υ).patrol =
      ({ q.patrol with
        scavenger := some q.patrol.nextScavenger
        nextScavenger := q.patrol.nextScavenger + 1
        scavengers := q.patrol.scavengers ++ [{
          id := q.patrol.nextScavenger
          nextTick := now + q.patrol.options.expiryMillis }] } : Pool υ).patrol := fun _ => rfl
    rw [hstarted, htaken]
    rfl

/-- The list and the counts stay as they are when a scavenger is started. -/
theorem idle_startScavenger (p : Pool υ) (now : Nat) : (p.startScavenger now).options = p.options ∧
    (p.startScavenger now).idle = p.idle ∧ (p.startScavenger now).tally = p.tally := by
  obtain ⟨scavengers, notices, htaken⟩ := takeScavenger_eq p
  unfold startScavenger
  split
  · exact ⟨rfl, rfl, rfl⟩
  · dsimp only
    rw [htaken]
    exact ⟨rfl, rfl, rfl⟩

theorem patrol_drop (p : Pool υ) :
    p.drop.patrol = ({ p.withRetired.withItems [] with dropped := true } : Pool υ).patrol := by
  have htaken := patrol_takeScavenger p
  unfold drop
  generalize p.takeScavenger = taken at htaken
  obtain ⟨q, s⟩ := taken
  dsimp only at htaken ⊢
  rw [patrol_stopAll]
  have hempty : ({ q with idle := q.idle.reset.2, dropped := true } : Pool υ).patrol =
      ({ q.patrol.withItems [] with dropped := true } : Pool υ).patrol := rfl
  rw [hempty, htaken]
  rfl

/-! ## Every event -/

/-- What an event does to the patrol of a pool. -/
inductive Rounds (p : Pool υ) : PoolEvent υ → Pool υ → Prop
  /-- Whoever was handed out is off the list, and whoever was found gone. -/
  | thins {e : PoolEvent υ} {q : Pool υ} {items : List (WorkerId × Nat)} :
      items.Sublist p.idle.items → q.patrol = (p.withItems items).patrol → Rounds p e q
  | joins {w : WorkerId} {now : Nat} {q : Pool υ} : p.closed = false → p.dropped = false →
      q.patrol = (p.withItems (p.idle.items ++ [(w, now)])).patrol → Rounds p (.complete w now) q
  | ends {s : ScavengerId} {now : Nat} {x : Scavenger} : p.scavenger? s = some x →
      x.cancelled = true ∨ p.closed = true ∨ p.dropped = true →
      Rounds p (.pollScavenger s now) (p.endScavenger s)
  | ticks {s : ScavengerId} {now : Nat} {x : Scavenger} : p.scavenger? s = some x →
      x.nextTick ≤ now → Rounds p (.pollScavenger s now) ((p.setScavenger s fun y =>
        { y with nextTick := x.nextTick + p.options.expiryMillis }).purge now)
  | resizes {size : Int} {n : Nat} {q : Pool υ} :
      q.patrol = ({ p with capacity := some n } : Pool υ).patrol → Rounds p (.tune size) q
  /-- A release finds the pool closed, or without the scavenger that it should have. -/
  | retires {e : PoolEvent υ} {q : Pool υ} :
      p.closed = true ∨ (∃ now timeout, e = .beginRelease now timeout) ∧
        p.options.disablePurge = false ∧ p.scavenger = none →
      q.patrol = p.withRetired.patrol → Rounds p e q
  | shuts {e : PoolEvent υ} {q : Pool υ} : q.patrol = p.shutDown.patrol → Rounds p e q
  | opens {now : Nat} {q : Pool υ} : p.closed = true →
      q.patrol = (({ p with closed := false } : Pool υ).startScavenger now).patrol →
      Rounds p (.reboot now) q
  | goes {q : Pool υ} :
      q.patrol = ({ p.withRetired.withItems [] with dropped := true } : Pool υ).patrol →
      Rounds p .drop q

theorem rounds_perform (p : Pool υ) {e : PoolEvent υ} (hkept : e.dropsTask = false) :
    p.Rounds e (p.perform e).1 := by
  have hsame : ∀ {e : PoolEvent υ} {q : Pool υ}, q.patrol = p.patrol → p.Rounds e q :=
    .thins (.refl _)
  cases e with
  | submit c u =>
    obtain ⟨items, hsub, hpatrol⟩ := patrol_attempt p c u
    exact .thins hsub hpatrol
  | resume c =>
    obtain ⟨items, hsub, hpatrol⟩ := patrol_resume p c
    exact .thins hsub hpatrol
  | abandon c => exact hsame (patrol_abandon p c)
  | pollWorker w => exact hsame (patrol_pollWorker p w)
  | complete w now =>
    rcases patrol_complete p w now with hkept | ⟨hopen, hthere, hjoins⟩
    · exact hsame hkept
    · exact .joins hopen hthere hjoins
  | crash w payload => exact hsame (patrol_crash p w payload)
  | killWorker w => cases hkept
  | pollScavenger s now =>
    show p.Rounds _ (p.pollScavenger s now).1
    rcases pollScavenger_cases p s now with hrests | ⟨x, hs, hends, hended⟩ |
      ⟨x, hs, hdue, hticks⟩
    · rw [hrests]
      exact hsame rfl
    · rw [hended]
      exact .ends hs hends
    · rw [hticks]
      exact .ticks hs hdue
  | killScavenger s => cases hkept
  | tune size =>
    rcases patrol_tune p size with hkept | ⟨n, hresized⟩
    · exact hsame hkept
    · exact .resizes hresized
  | release =>
    rcases patrol_release p with ⟨hclosed, hretired⟩ | ⟨-, hshut⟩
    · exact .retires (.inl hclosed) hretired
    · exact .shuts hshut
  | beginRelease now timeout =>
    rcases patrol_beginRelease p now timeout with ⟨hfails, hretired⟩ | ⟨-, hshut⟩
    · exact .retires (hfails.imp_right fun hlost => ⟨⟨now, timeout, rfl⟩, hlost⟩) hretired
    · exact .shuts hshut
  | reboot now =>
    show p.Rounds _ (p.reboot now)
    unfold reboot
    split
    · rename_i hclosed
      exact .opens hclosed (patrol_debug _ _ _)
    · exact hsame rfl
  | drop => exact .goes (patrol_drop p)

/-- Only `tune` changes the capacity, and nothing the kind of the list. -/
theorem Rounds.capacity {e : PoolEvent υ} (hq : p.Rounds e q) (htune : ∀ size, e ≠ .tune size) :
    q.capacity = p.capacity ∧ q.idle.discipline = p.idle.discipline := by
  have hsame : ∀ {r : Pool υ}, q.patrol = r.patrol → r.capacity = p.capacity ∧
      r.idle.discipline = p.idle.discipline → q.capacity = p.capacity ∧
        q.idle.discipline = p.idle.discipline := fun hq hr =>
    ⟨(eq_of_patrol (f := Pool.capacity) (fun _ => rfl) hq).trans hr.1,
      (eq_of_patrol (f := fun p => p.idle.discipline) (fun _ => rfl) hq).trans hr.2⟩
  cases hq with
  | thins _ hpatrol => exact hsame hpatrol ⟨rfl, rfl⟩
  | joins _ _ hpatrol => exact hsame hpatrol ⟨rfl, rfl⟩
  | ends _ _ => exact ⟨rfl, rfl⟩
  | ticks _ _ => exact hsame (patrol_purge _ _) ⟨rfl, rfl⟩
  | resizes _ => exact absurd rfl (htune _)
  | retires _ hpatrol => exact hsame hpatrol ⟨rfl, rfl⟩
  | shuts hpatrol => exact hsame hpatrol ⟨rfl, rfl⟩
  | @opens now _ _ hpatrol =>
    obtain ⟨-, hidle, -⟩ := idle_startScavenger ({ p with closed := false } : Pool υ) now
    have hcapacity := congrArg Floor.capacity
      (floor_startScavenger ({ p with closed := false } : Pool υ) now)
    exact hsame hpatrol ⟨hcapacity, congrArg IdleList.discipline hidle⟩
  | goes hpatrol => exact hsame hpatrol ⟨rfl, rfl⟩

end Pool

end Overseer
