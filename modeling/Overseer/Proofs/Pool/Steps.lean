import Overseer.Proofs.Pool.Floor

/-!
# The steps of a pool

Every event that may happen on a tidy floor is one of the steps of a floor (`step_of_perform`), and
what it does with units is what its answer says. So the floor of a pool is tidy at all times
(`tidy_of_run`), and what is true of every step is true of every occurrence of a run
(`step_of_mem`).
-/

namespace Overseer

variable {υ : Type}

namespace Pool

variable {p : Pool υ}

theorem hasRoom_imp (h : p.hasRoom = true) : ∀ n, p.capacity = some n → p.running < n :=
  fun _ hn => (hasRoom_iff hn).1 h

theorem floor_attempt (p : Pool υ) (c : CallerId) (u : υ) :
    p.floor.Attempt c u (p.attempt c u).2 (p.attempt c u).1.floor := by
  unfold attempt
  split
  · exact .refuses .closed (List.Subperm.refl _)
  · split
    · rename_i dead w rest hd
      obtain ⟨hlive, hlisted⟩ := IdleList.listed_of_detachLive hd
      have hw : w ∈ p.floor.workers.map (·.id) := by
        simpa [isAlive, floor] using hlive
      rw [floor_send, floor_discard]
      exact .hands hlisted hw
    · rename_i dead rest hd
      -- nobody on the list was alive, so it is empty now
      have hnil := IdleList.listed_of_detachLive_none hd
      have hlisted : rest.listed.Subperm p.floor.idle := by
        rw [hnil]
        exact List.nil_subperm
      have hfloor := floor_discard ({ p with idle := rest } : Pool υ) dead
      generalize ({ p with idle := rest } : Pool υ).discard dead = q at hfloor
      dsimp only
      split
      · rename_i hroom
        have hcap : q.capacity = p.capacity := congrArg Floor.capacity hfloor
        have hrunning : q.running = p.running := congrArg Floor.running hfloor
        rw [floor_spawn, hfloor]
        refine .hires hlisted fun n hn => ?_
        have := hasRoom_imp hroom n (hcap.trans hn)
        rwa [hrunning] at this
      · split
        · rw [show (q.park c u).floor = { q.floor with callers := q.floor.callers ++ [⟨c, u⟩] }
            from rfl, hfloor]
          exact .waits hlisted
        · rw [floor_reject, hfloor]
          exact .refuses .overload hlisted

theorem mem_of_caller? {c : CallerId} {x : Caller υ} (h : p.caller? c = some x) :
    x ∈ p.callers ∧ x.id = c := by
  have hid := List.find?_some h
  exact ⟨List.mem_of_find?_eq_some h, by simpa using hid⟩

theorem mem_of_worker? {w : WorkerId} {x : Worker υ} (h : p.worker? w = some x) :
    x ∈ p.workers ∧ x.id = w := by
  have hid := List.find?_some h
  exact ⟨List.mem_of_find?_eq_some h, by simpa using hid⟩

/-- A caller stops waiting. -/
def unpark (p : Pool υ) (c : CallerId) : Pool υ :=
  { p with
    notifier := p.notifier.take c
    waiting := p.waiting - 1
    callers := p.callers.filter (·.id != c) }

/-- Only a parked caller that was woken tries again. -/
theorem resume_cases (p : Pool υ) (c : CallerId) : p.resume c = (p, .parked) ∧
      (∀ x, p.caller? c = some x → p.notifier.isWoken c = false) ∨
    ∃ x, p.caller? c = some x ∧ p.notifier.isWoken c = true ∧
      p.resume c = (p.unpark c).attempt c x.unit := by
  unfold resume
  cases hc : p.caller? c with
  | none =>
    have hfind : p.callers.find? (·.id == c) = none := hc
    rw [hfind]
    exact .inl ⟨rfl, by simp⟩
  | some x =>
    have hfind : p.callers.find? (·.id == c) = some x := hc
    rw [hfind]
    cases hwoken : p.notifier.isWoken c with
    | false => exact .inl ⟨by simp, by simp⟩
    | true => exact .inr ⟨x, rfl, rfl, by simp [unpark]⟩

/-- What an attempt keeps, once the caller has given up its place, its turn keeps. -/
theorem keeps_resume {P : Pool υ → Prop} {p : Pool υ} (hp : P p) (c : CallerId)
    (h : ∀ u, P ((p.unpark c).attempt c u).1) : P (p.resume c).1 := by
  rcases resume_cases p c with ⟨hrests, -⟩ | ⟨x, -, -, htries⟩
  · rwa [hrests]
  · rw [htries]
    exact h x.unit

theorem step_resume (p : Pool υ) (c : CallerId) :
    p.floor.Step (p.traffic (.resume c)) (p.resume c).1.floor := by
  rcases resume_cases p c with ⟨hrests, -⟩ | ⟨x, hc, -, htries⟩
  · have hnothing : p.traffic (.resume c) = {} := by
      simp only [traffic, hrests]
      split <;> rfl
    rw [hnothing, hrests]
    exact .rests
  · obtain ⟨hx, rfl⟩ := mem_of_caller? hc
    simp only [traffic, hc, htries]
    exact .resumes (f := p.floor) hx (floor_attempt (p.unpark x.id) x.id x.unit)

theorem floor_abandon (p : Pool υ) (c : CallerId) : (p.abandon c).floor = p.floor.forget c := by
  unfold abandon
  split
  · rfl
  · rename_i hnobody
    have hothers : p.callers.filter (·.id != c) = p.callers :=
      List.filter_eq_self.2 fun x hx => by
        have hne : x.id ≠ c := fun he => hnobody (List.any_eq_true.2 ⟨x, hx, by simpa using he⟩)
        simpa using hne
    simp [floor, Floor.forget, hothers]

theorem step_abandon (p : Pool υ) (c : CallerId) :
    p.floor.Step (p.traffic (.abandon c)) (p.abandon c).floor := by
  cases hc : p.caller? c with
  | none =>
    have hnone : p.callers.any (·.id == c) = false := by
      rw [← List.isSome_find?, show p.callers.find? (·.id == c) = none from hc]
      rfl
    simp only [traffic, abandon, hc, hnone, Bool.false_eq_true, if_false]
    exact .rests
  | some x =>
    obtain ⟨hx, rfl⟩ := mem_of_caller? hc
    rw [floor_abandon]
    simp only [traffic, hc]
    exact Floor.Step.withdraws (f := p.floor) hx

/-- A worker that has a turn has nothing to do, or starts the unit that it was handed, or exits
because it was told to. -/
theorem pollWorker_cases (ht : p.floor.Tidy) (w : WorkerId) :
    (p.pollWorker w).1.floor = p.floor ∧ p.traffic (.pollWorker w) = {} ∨
    (∃ x u inbox, x ∈ p.workers ∧ x.id = w ∧
      (x.phase = .spawned u ∧ inbox = x.inbox ∨ x.phase = .parked ∧ x.inbox = .unit u :: inbox) ∧
      (p.pollWorker w).1.floor = p.floor.setPhase x.id (.busy u) inbox ∧
      p.traffic (.pollWorker w) = { started := [(x.id, u)] }) ∨
    ∃ x ∈ p.workers, x.id = w ∧ x.phase = .parked ∧ x.inbox = [.stop] ∧
      (p.pollWorker w).1.floor = p.floor.without x.id p.floor.freed ∧
      p.traffic (.pollWorker w) = {} := by
  cases hw : p.worker? w with
  | none =>
    simp only [traffic, pollWorker, hw]
    exact .inl ⟨trivial, trivial⟩
  | some x =>
    obtain ⟨hx, rfl⟩ := mem_of_worker? hw
    cases hphase : x.phase with
    | spawned u =>
      simp only [traffic, pollWorker, hw, hphase]
      exact .inr (.inl ⟨x, u, x.inbox, hx, rfl, .inl ⟨hphase, rfl⟩, rfl, rfl⟩)
    | busy u =>
      simp only [traffic, pollWorker, hw, hphase]
      exact .inl ⟨trivial, trivial⟩
    | parked =>
      rcases ht.alone x hx with hinbox | ⟨-, m, hinbox⟩
      · simp only [traffic, pollWorker, hw, hphase, hinbox]
        exact .inl ⟨trivial, trivial⟩
      · cases m with
        | unit u =>
          simp only [traffic, pollWorker, hw, hphase, hinbox]
          exact .inr (.inl ⟨x, u, [], hx, rfl, .inr ⟨hphase, hinbox⟩, rfl, rfl⟩)
        | stop =>
          simp only [traffic, pollWorker, hw, hphase, hinbox, floor_exit]
          exact .inr (.inr ⟨x, hx, rfl, hphase, hinbox, rfl, trivial⟩)

theorem step_pollWorker (ht : p.floor.Tidy) (w : WorkerId) :
    p.floor.Step (p.traffic (.pollWorker w)) (p.pollWorker w).1.floor := by
  rcases pollWorker_cases ht w with ⟨hfloor, htraffic⟩ |
    ⟨x, u, inbox, hx, -, hunit, hfloor, htraffic⟩ | ⟨x, hx, -, hphase, hinbox, hfloor, htraffic⟩
  · rw [hfloor, htraffic]
    exact .rests
  · rw [hfloor, htraffic]
    exact .starts (f := p.floor) hx hunit
  · have hnothing : x.unstarted = [] := by
      simp [Worker.unstarted, hphase, hinbox, units, Message.unit?]
    rw [hfloor, htraffic]
    exact p.floor.step_leaves hx hnothing

/-- A worker that runs a unit has no other. -/
theorem unstarted_of_isBusy (ht : p.floor.Tidy) {w : WorkerId} (h : p.isBusy w = true) :
    ∃ x ∈ p.workers, x.id = w ∧ (∃ u, x.phase = .busy u) ∧ x.unstarted = [] := by
  obtain ⟨x, hw, hbusy⟩ := (Option.any_eq_true _ _).1 h
  obtain ⟨hx, rfl⟩ := mem_of_worker? hw
  split at hbusy
  · rename_i u hphase
    have hinbox := ht.inbox_eq_nil hx (by simp [hphase])
    exact ⟨x, hx, rfl, ⟨u, hphase⟩, by simp [Worker.unstarted, hphase, hinbox, units]⟩
  · contradiction

/-- A worker that runs a unit and exits. -/
theorem step_exit (ht : p.floor.Tidy) {w : WorkerId} (h : p.isBusy w = true) :
    p.floor.Step {} (p.floor.without w p.floor.freed) := by
  obtain ⟨x, hx, rfl, -, hnothing⟩ := unstarted_of_isBusy ht h
  exact p.floor.step_leaves hx hnothing

/-- A worker that has ended its unit exits or joins the idle list. -/
theorem floor_complete (p : Pool υ) (w : WorkerId) (now : Nat) :
    (p.complete w now).floor = p.floor.without w p.floor.freed ∨ (p.complete w now).floor =
      ({ p.floor with idle := p.floor.idle ++ [w] } : Floor υ).setPhase w .parked [] := by
  unfold complete
  split
  · exact .inl (floor_exit p w)
  · split
    · rw [floor_exit, floor_notifyAll]
      exact .inl rfl
    · split
      · exact .inl (floor_exit p w)
      · rename_i idle hidle
        have hjoined : ({ p with idle := idle } : Pool υ).floor =
            { p.floor with idle := p.floor.idle ++ [w] } := by
          simp [floor, IdleList.listed_of_insert? hidle]
        rw [floor_notifyOne, floor_setPhase, hjoined]
        exact .inr rfl

theorem floor_crash (p : Pool υ) (w : WorkerId) (payload : Payload) :
    (p.crash w payload).floor = p.floor.without w p.floor.freed := by
  unfold crash
  rw [floor_exit]
  split
  · rfl
  · rw [floor_reportPanic]

theorem step_complete (ht : p.floor.Tidy) {w : WorkerId} (h : p.isBusy w = true) (now : Nat) :
    p.floor.Step {} (p.complete w now).floor := by
  rcases floor_complete p w now with hexits | hjoins
  · rw [hexits]
    exact step_exit ht h
  · obtain ⟨x, hx, rfl, ⟨u, hphase⟩, -⟩ := unstarted_of_isBusy ht h
    rw [hjoins]
    exact .joins hx hphase

theorem step_crash (ht : p.floor.Tidy) {w : WorkerId} (h : p.isBusy w = true)
    (payload : Payload) : p.floor.Step {} (p.crash w payload).floor := by
  rw [floor_crash]
  exact step_exit ht h

/-- A worker that is dropped before its first turn does not give back its slot. -/
theorem floor_killWorker {w : WorkerId} {x : Worker υ} (hw : p.worker? w = some x) :
    ∃ n, (n = p.floor.running ∧ (∃ u, x.phase = .spawned u) ∨ n = p.floor.freed) ∧
      (p.killWorker w).floor = p.floor.without w n := by
  simp only [killWorker, hw]
  split
  · rename_i u hphase
    exact ⟨p.floor.running, .inl ⟨rfl, u, hphase⟩, rfl⟩
  · refine ⟨p.floor.freed, .inr rfl, ?_⟩
    rw [floor_freeSlot, floor_removeWorker]
    rfl

theorem step_killWorker (p : Pool υ) (w : WorkerId) :
    p.floor.Step (p.traffic (.killWorker w)) (p.killWorker w).floor := by
  cases hw : p.worker? w with
  | none =>
    simp only [traffic, killWorker, hw]
    exact .rests
  | some x =>
    obtain ⟨n, hn, hfloor⟩ := floor_killWorker hw
    obtain ⟨hx, rfl⟩ := mem_of_worker? hw
    rw [hfloor]
    simp only [traffic, hw, Option.toList_some, List.flatMap_singleton]
    exact .leaves (f := p.floor) hx hn

/-! ## Idle workers that are told to exit -/

end Pool

namespace Floor

/-- The idle workers that have been idle longest are told to exit, as many as there may be. -/
def Sheds (f f' : Floor υ) : Prop :=
  ∃ ws rest, ws ++ rest = f.idle ∧ f' = ({ f with idle := rest } : Floor υ).tell ws .stop

theorem Sheds.refl (f : Floor υ) : f.Sheds f := ⟨[], f.idle, rfl, (tell_nil f .stop).symm⟩

theorem Sheds.step {f f' : Floor υ} (h : f.Sheds f') : f.Step {} f' := by
  obtain ⟨ws, rest, hall, rfl⟩ := h
  exact .dismisses (fun hd => hd) (List.Perm.of_eq hall).subperm

end Floor

namespace Pool

variable {p : Pool υ}

theorem sheds_purge (ht : p.floor.Tidy) (now : Nat) : p.floor.Sheds (p.purge now).floor := by
  have hall : (p.idle.expire p.options.expiryMillis now).1 ++
      (p.idle.expire p.options.expiryMillis now).2.listed = p.floor.idle :=
    p.idle.expire_append p.options.expiryMillis now
  unfold purge
  generalize p.idle.expire p.options.expiryMillis now = split at hall
  obtain ⟨expired, idle⟩ := split
  have hnodup : expired.Nodup := (List.nodup_append.1 (hall ▸ ht.idle_nodup)).1
  refine ⟨expired, idle.listed, hall, ?_⟩
  have hwoken : ∀ q : Pool υ,
      (if q.running == 0 || (0 < q.waiting && 0 < q.free) then q.notifyAll else q).floor =
        q.floor := by
    intro q
    split
    · exact floor_notifyAll q
    · rfl
  dsimp only
  rw [hwoken]
  split
  · rename_i hnobody
    rw [List.isEmpty_iff.1 hnobody, Floor.tell_nil]
    rfl
  · rw [floor_foldl (m := .stop) (fun q w => by simp) hnodup]
    rfl

theorem sheds_pollScavenger (ht : p.floor.Tidy) (s : ScavengerId) (now : Nat) :
    p.floor.Sheds (p.pollScavenger s now).1.floor := by
  unfold pollScavenger
  split
  · exact .refl _
  · split
    · exact .refl _
    · split
      · exact .refl _
      · split
        · exact .refl _
        · split
          · exact .refl _
          · exact sheds_purge (p := p.setScavenger s _) ht now

/-- Everybody who is idle is told to exit. -/
theorem sheds_all {q : Pool υ} (ht : p.floor.Tidy) {f : Floor υ} (hf : f.idle = p.floor.idle)
    (hq : q.floor = { f with idle := [] }) : f.Sheds (q.stopAll p.idle.reset.1).floor := by
  have hnodup : p.idle.reset.1.Nodup := ht.idle_nodup
  refine ⟨p.idle.reset.1, [], (List.append_nil _).trans hf.symm, ?_⟩
  rw [floor_stopAll hnodup, hq]

theorem sheds_close (ht : p.floor.Tidy) : p.floor.Sheds p.close.floor := by
  unfold close
  split
  · exact .refl _
  · exact sheds_all ht rfl rfl

theorem sheds_release (ht : p.floor.Tidy) : p.floor.Sheds p.release.floor := by
  have htaken := floor_takeScavenger p
  unfold release
  generalize p.takeScavenger = taken at htaken
  obtain ⟨q, scavenger⟩ := taken
  dsimp only at htaken ⊢
  rw [← htaken] at ht ⊢
  split
  · exact .refl _
  · exact sheds_close ht

theorem sheds_beginRelease (ht : p.floor.Tidy) (now : Nat) (timeout : Duration) :
    p.floor.Sheds (p.beginRelease now timeout).1.floor := by
  have htaken := floor_takeScavenger p
  unfold beginRelease
  generalize p.takeScavenger = taken at htaken
  obtain ⟨q, scavenger⟩ := taken
  dsimp only at htaken ⊢
  rw [← htaken] at ht ⊢
  split
  · exact .refl _
  · exact sheds_close ht

/-- The pool is gone first, for workers that are told to exit. -/
theorem sheds_drop (ht : p.floor.Tidy) :
    ({ p.floor with dropped := true } : Floor υ).Sheds p.drop.floor := by
  have htaken := floor_takeScavenger p
  unfold drop
  generalize p.takeScavenger = taken at htaken
  obtain ⟨q, scavenger⟩ := taken
  dsimp only at htaken ⊢
  rw [← htaken] at ht ⊢
  exact sheds_all ht rfl rfl

/-! ## Every event is a step -/

/-- A pool stays bounded or unbounded. -/
theorem floor_tune (p : Pool υ) (size : Int) : (p.tune size).floor = p.floor ∨
    p.floor.capacity.isSome = true ∧
      ∃ n, (p.tune size).floor = { p.floor with capacity := some n } := by
  unfold tune
  split
  · exact .inl rfl
  · rename_i c hcap
    have hbounded : p.floor.capacity.isSome = true := by
      rw [show p.floor.capacity = p.capacity from rfl, hcap]
      rfl
    split
    · exact .inl rfl
    · refine .inr ⟨hbounded, size.toNat, ?_⟩
      dsimp only
      split
      · rfl
      · split
        · rw [floor_notifyOne]
          rfl
        · rfl

theorem step_tune (p : Pool υ) (size : Int) : p.floor.Step {} (p.tune size).floor := by
  rcases floor_tune p size with hsame | ⟨hbounded, n, hresized⟩
  · rw [hsame]
    exact .rests
  · rw [hresized]
    exact .resizes hbounded

@[simp] theorem floor_reboot (p : Pool υ) (now : Nat) : (p.reboot now).floor = p.floor := by
  unfold reboot
  split
  · rw [floor_debug, floor_startScavenger]
    rfl
  · rfl

theorem step_drop (ht : p.floor.Tidy) : p.floor.Step {} p.drop.floor := by
  obtain ⟨ws, rest, hall, hfloor⟩ := sheds_drop ht
  rw [hfloor]
  exact .dismisses (fun _ => rfl) (List.Perm.of_eq hall).subperm

/-- Every event that may happen on a tidy floor is a step. -/
theorem step_of_perform {h : List (Occurrence (Pool υ) (PoolEvent υ))} (ht : p.floor.Tidy)
    {e : PoolEvent υ} (hall : Pool.allows h p e = true) :
    p.floor.Step (p.traffic e) (p.perform e).1.floor := by
  cases e with
  | submit c u => exact .submits (floor_attempt p c u)
  | resume c => exact step_resume p c
  | abandon c => exact step_abandon p c
  | pollWorker w => exact step_pollWorker ht w
  | complete w now => exact step_complete ht hall now
  | crash w payload => exact step_crash ht hall payload
  | killWorker w => exact step_killWorker p w
  | pollScavenger s now => exact (sheds_pollScavenger ht s now).step
  | killScavenger s => exact .rests
  | tune size => exact step_tune p size
  | release => exact (sheds_release ht).step
  | beginRelease now timeout => exact (sheds_beginRelease ht now timeout).step
  | reboot now => exact floor_reboot p now ▸ .rests
  | drop => exact step_drop ht

/-- Only a worker whose task is dropped takes a unit with it. -/
theorem lost_eq_nil {e : PoolEvent υ} (hkept : ∀ w, e ≠ .killWorker w) :
    (p.traffic e).lost = [] := by
  cases e with
  | killWorker w => exact absurd rfl (hkept w)
  | resume c =>
    simp only [traffic]
    split
    · simp
    · rfl
  | pollWorker w =>
    simp only [traffic]
    split <;> rfl
  | submit c u => simp [traffic]
  | _ => rfl

theorem tidy_create (c : Option Nat) (options : PoolOptions) (now : Nat) :
    (create c options now : Pool υ).floor.Tidy := by
  unfold create
  rw [floor_debug, floor_startScavenger]
  exact ⟨List.nodup_nil, by simp [floor], List.nodup_nil, by simp [floor, IdleList.listed],
    by simp [floor], by simp [floor], Nat.le_refl _⟩

theorem running_of_start {p₀ : Pool υ} (hs : (poolSystem υ).starts p₀) : p₀.running = 0 := by
  obtain ⟨capacity, options, now, p, hnew, rfl⟩ := hs
  obtain ⟨c, rfl⟩ := exists_eq_create hnew
  have hfloor : (create c options now : Pool υ).floor.running = 0 := by
    unfold create
    rw [floor_debug, floor_startScavenger]
    rfl
  exact hfloor

theorem tidy_of_run {h : List (Occurrence (Pool υ) (PoolEvent υ))}
    (hrun : (poolSystem υ).Run h p) : p.floor.Tidy := by
  induction hrun with
  | start hs =>
    obtain ⟨capacity, options, now, p₀, hnew, rfl⟩ := hs
    obtain ⟨c, rfl⟩ := exists_eq_create hnew
    exact tidy_create c options now
  | next _ hall ih => exact ih.step (step_of_perform ih hall)

/-- Every occurrence of a run was a step on a tidy floor. -/
theorem step_of_mem {h : List (Occurrence (Pool υ) (PoolEvent υ))} (hrun : (poolSystem υ).Run h p)
    {o : Occurrence (Pool υ) (PoolEvent υ)} (ho : o ∈ h) : o.before.floor.Tidy ∧
      o.before.floor.Step (o.before.traffic o.event) ((poolSystem υ).after o).floor := by
  obtain ⟨pre, hpre, hall, -⟩ := hrun.of_mem ho
  exact ⟨tidy_of_run hpre, step_of_perform (tidy_of_run hpre) hall⟩

end Pool

end Overseer
