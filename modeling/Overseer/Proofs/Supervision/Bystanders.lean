import Overseer.Proofs.Supervision.Stillness

/-!
# What a turn leaves alone

While a destroy call waits for loops it keeps the lifecycle lock, so the turns of other calls
change little: `Spares d s t` says that between `s` and `t` the call `d` may have gone on, but the
lock has stayed where it was, with everybody else waiting for it, and so have all other calls
(`spares_of_perform`). A run of a task goes on in a terminated set until it ends or is dropped,
whatever happens to calls and to other loops (`isRunning_of_perform`).
-/

namespace Overseer

variable {κ ξ : Type}

/-- The call that an event is about. -/
def SetEvent.actor? : SetEvent κ ξ → Option CallId
  | .begin c _ _ => some c
  | .poll c _ => some c
  | .initialized c _ _ => some c
  | .abandon c => some c
  | _ => none

theorem SetEvent.actor?_of_caller? {e : SetEvent κ ξ} {c : CallId} (h : e.caller? = some c) :
    e.actor? = some c := by
  cases e with
  | begin d request b => exact h
  | poll d b => exact h
  | initialized d result b => exact h
  | _ => simp [SetEvent.caller?] at h

namespace TaskSet

variable {s t u : TaskSet κ ξ} {c d k : CallId} {l : LoopId} {p q : CallPhase κ ξ}
  {h : List (SetOccurrence κ ξ)} {e : SetEvent κ ξ}

/-! ## Other calls -/

/-- Only the call `d` has gone on, without the lifecycle lock. -/
structure Spares (d : CallId) (s t : TaskSet κ ξ) : Prop where
  holder : t.lifecycleLock.holder = s.lifecycleLock.holder
  queue : ∀ k ∈ s.lifecycleLock.queue, k ≠ d → k ∈ t.lifecycleLock.queue
  calls : ∀ x ∈ s.calls, x.id ≠ d → x ∈ t.calls

theorem Spares.refl (d : CallId) (s : TaskSet κ ξ) : Spares d s s :=
  ⟨rfl, fun _ hk _ => hk, fun _ hx _ => hx⟩

theorem Spares.trans (h : Spares d s t) (h' : Spares d t u) : Spares d s u :=
  ⟨h'.holder.trans h.holder, fun k hk hne => h'.queue k (h.queue k hk hne) hne,
    fun x hx hne => h'.calls x (h.calls x hx hne) hne⟩

theorem spares_setPhase (d : CallId) (q : CallPhase κ ξ) (s : TaskSet κ ξ) :
    Spares d s (s.setPhase d q) :=
  ⟨rfl, fun _ hk _ => hk, fun x hx hne => List.mem_map.2 ⟨x, hx, by simp [hne]⟩⟩

theorem spares_addCall (d : CallId) (q : CallPhase κ ξ) (s : TaskSet κ ξ) :
    Spares d s (s.addCall d q) :=
  ⟨rfl, fun _ hk _ => hk, fun _ hx _ => List.mem_append_left _ hx⟩

/-- A lock that is held only gets another waiter. -/
theorem spares_lockLifecycle (hheld : s.lifecycleLock.holder = some c) (d : CallId) :
    Spares d s (s.lockLifecycle d) := by
  refine ⟨?_, fun k hk _ => ?_, fun _ hx _ => hx⟩
  · simp [lockLifecycle, Lock.acquire, hheld]
  · simp [lockLifecycle, Lock.acquire, hheld, hk]

/-- A call that ends without the lock takes nothing from the others. -/
theorem spares_endCall (hheld : s.lifecycleLock.holder = some c) (hne : c ≠ d) :
    Spares d s (s.endCall d) := by
  have hleave : (s.lifecycleLock.leave d).1 =
      { s.lifecycleLock with queue := s.lifecycleLock.queue.filter (· != d) } := by
    simp [Lock.leave, Lock.isHeldBy, hheld, hne]
  have hdesk := desk_endCall s d
  rw [hleave] at hdesk
  refine Spares.trans (t := { s.without d with lifecycleLock :=
    { s.lifecycleLock with queue := s.lifecycleLock.queue.filter (· != d) } }) ?_ ?_
  · exact ⟨rfl, fun k hk hkd => List.mem_filter.2 ⟨hk, by simpa using hkd⟩,
      fun x hx hxd => List.mem_filter.2 ⟨hx, by simpa using hxd⟩⟩
  · have hlock := congrArg (fun u : TaskSet κ ξ => u.lifecycleLock) hdesk
    have hcalls := congrArg (fun u : TaskSet κ ξ => u.calls) hdesk
    exact ⟨congrArg Lock.holder hlock, fun k hk _ => (congrArg Lock.queue hlock).symm ▸ hk,
      fun x hx _ => hcalls.symm ▸ hx⟩

theorem not_isHeldBy (hheld : s.lifecycleLock.holder = some c) (hne : c ≠ d) :
    s.lifecycleLock.isHeldBy d = false := by
  simp [Lock.isHeldBy, hheld, hne]

/-- Without the lock, and while loops are waited for, only a startup that has got the startup lock
has something to do. -/
theorem phase_of_canGoOn {x : Call κ ξ} (hheld : s.lifecycleLock.holder = some c) (hne : c ≠ x.id)
    (hq : s.isQuiet = false) (hgo : s.canGoOn x = true) : x.phase = .queued := by
  have hno := not_isHeldBy hheld hne
  unfold canGoOn at hgo
  cases hp : x.phase with
  | queued => rfl
  | initializing r => simp [hp] at hgo
  | preparing current rest => simp [hp] at hgo
  | draining => simp [hp, hq] at hgo
  | _ => simp [hp, hno] at hgo

/-- The turn of a call that does not hold the lock, while loops are waited for. -/
theorem spares_poll (hheld : s.lifecycleLock.holder = some c) (hne : c ≠ d)
    (hq : s.isQuiet = false) (b : Bool) : Spares d s (s.poll d b).1 := by
  cases hx : s.call? d with
  | none =>
    have hwait : s.poll d b = (s, .wait) := by simp [poll, hx]
    rw [hwait]
    exact .refl d s
  | some x =>
    cases hgo : s.canGoOn x with
    | false =>
      rw [poll_of_not_canGoOn hx hgo b]
      exact .refl d s
    | true =>
      obtain rfl : x.id = d := by simpa using List.find?_some hx
      have hqueued := phase_of_canGoOn hheld hne hq hgo
      have hclaim : Spares x.id s ((s.setPhase x.id .opening).lockLifecycle x.id) :=
        (spares_setPhase x.id .opening s).trans
          (spares_lockLifecycle (s := s.setPhase x.id .opening) hheld x.id)
      have hno' : ((s.setPhase x.id .opening).lockLifecycle x.id).lifecycleLock.isHeldBy x.id =
          false := not_isHeldBy (hclaim.holder.trans hheld) hne
      unfold poll
      simp only [hx, hqueued, hno', Bool.false_eq_true, if_false]
      split
      · exact hclaim
      · exact .refl _ s

/-- Startup that goes on while somebody else holds the lock. -/
theorem spares_goOn (hheld : s.lifecycleLock.holder = some c) (hne : c ≠ d) (es : List Entry)
    (b : Bool) : Spares d s (s.goOn d es b).1 := by
  have hlock := spares_lockLifecycle hheld d
  have hno : ∀ q : CallPhase κ ξ,
      ((s.lockLifecycle d).setPhase d q).lifecycleLock.isHeldBy d = false :=
    fun q => not_isHeldBy (s := (s.lockLifecycle d).setPhase d q) (hlock.holder.trans hheld) hne
  unfold goOn
  cases es with
  | nil =>
    simp only [hno .concluding, Bool.false_eq_true, if_false]
    exact hlock.trans (spares_setPhase d .concluding _)
  | cons next rest =>
    simp only [hno (.checking next rest), Bool.false_eq_true, if_false]
    exact hlock.trans (spares_setPhase d (.checking next rest) _)

theorem spares_initialized (hheld : s.lifecycleLock.holder = some c) (hne : c ≠ d)
    (hq : s.isQuiet = false) (result : Except Fault Unit) (b : Bool) :
    Spares d s (s.initialized d result b).1 := by
  have hback : ∀ {t : TaskSet κ ξ} (q : CallPhase κ ξ), t.lifecycleLock = s.lifecycleLock →
      t.calls = s.calls → t.loops = s.loops →
        Spares d s (((t.setPhase d q).lockLifecycle d).poll d b).1 := by
    intro t q hlock hcalls hloops
    have hsame : Spares d s t :=
      ⟨by rw [hlock], fun k hk _ => hlock ▸ hk, fun x hx _ => hcalls ▸ hx⟩
    have hheld' : (t.setPhase d q).lifecycleLock.holder = some c := hlock ▸ hheld
    have hclaim := (spares_setPhase d q t).trans (spares_lockLifecycle hheld' d)
    have hq' : ((t.setPhase d q).lockLifecycle d).isQuiet = false :=
      (isQuiet_of_loops (t := (t.setPhase d q).lockLifecycle d) hloops).trans hq
    exact (hsame.trans hclaim).trans
      (spares_poll ((hsame.trans hclaim).holder.trans hheld) hne hq' b)
  unfold initialized
  cases hx : s.call? d with
  | none => exact .refl d s
  | some x =>
    cases hp : x.phase with
    | initializing r =>
      cases result with
      | error source =>
        simp only [hp]
        exact spares_endCall hheld hne
      | ok _ =>
        simp only [hp]
        exact hback _ rfl rfl rfl
    | preparing current rest =>
      cases result with
      | error source =>
        simp only [hp]
        exact hback (.aborting current source) rfl rfl rfl
      | ok _ =>
        simp only [hp]
        have hgo := spares_goOn (s := { s with
          registry := s.registry.modify current.task.id fun r =>
            { r with state := .initialized } }) hheld hne rest b
        exact ⟨hgo.holder, hgo.queue, hgo.calls⟩
    | _ => simpa only [hp] using .refl d s

theorem spares_begin (hheld : s.lifecycleLock.holder = some c) (hne : c ≠ d)
    (hq : s.isQuiet = false) (request : Request κ ξ) (b : Bool) :
    Spares d s (s.begin d request b).1 := by
  have hfirst : ∀ {t : TaskSet κ ξ}, Spares d s t → t.loops = s.loops →
      Spares d s (t.poll d b).1 := fun ht hloops =>
    ht.trans (spares_poll (ht.holder.trans hheld) hne ((isQuiet_of_loops hloops).trans hq) b)
  have hlock : ∀ q : CallPhase κ ξ, Spares d s ((s.addCall d q).lockLifecycle d) := fun q =>
    (spares_addCall d q s).trans (spares_lockLifecycle (s := s.addCall d q) hheld d)
  cases request with
  | register task args options order extra => exact hfirst (hlock _) rfl
  | init =>
    have hadd := spares_addCall d .queued s
    exact hfirst (t := { s.addCall d .queued with startupLock := s.startupLock.acquire d })
      ⟨hadd.holder, hadd.queue, hadd.calls⟩ rfl
  | destroy => exact hfirst (hlock _) rfl

theorem same_of_desk (h : t.desk = s.desk) :
    t.lifecycleLock = s.lifecycleLock ∧ t.calls = s.calls := by
  have hlock : t.desk.lifecycleLock = s.desk.lifecycleLock := by rw [h]
  have hcalls : t.desk.calls = s.desk.calls := by rw [h]
  exact ⟨hlock, hcalls⟩

/-- While the call that has the lock waits for loops, an event about another call leaves everybody
else where they are. -/
theorem spares_of_perform (hheld : s.lifecycleLock.holder = some c) (hq : s.isQuiet = false)
    (hc : e.actor? ≠ some c) (hdrop : e ≠ .drop) :
    (s.perform e).1.lifecycleLock.holder = some c ∧ ∀ k, e.actor? ≠ some k →
      (k ∈ s.lifecycleLock.queue → k ∈ (s.perform e).1.lifecycleLock.queue) ∧
      ∀ p, ⟨k, p⟩ ∈ s.calls → ⟨k, p⟩ ∈ (s.perform e).1.calls := by
  have hother : ∀ {d : CallId}, e.actor? = some d → c ≠ d := fun hd hcd => hc (hcd ▸ hd)
  have hcall : ∀ {d : CallId}, e.actor? = some d → Spares d s (s.perform e).1 →
      (s.perform e).1.lifecycleLock.holder = some c ∧ ∀ k, e.actor? ≠ some k →
        (k ∈ s.lifecycleLock.queue → k ∈ (s.perform e).1.lifecycleLock.queue) ∧
        ∀ p, ⟨k, p⟩ ∈ s.calls → ⟨k, p⟩ ∈ (s.perform e).1.calls := by
    intro d hd ht
    refine ⟨ht.holder.trans hheld, fun k hk => ?_⟩
    have hne : k ≠ d := fun hkd => hk (hkd ▸ hd)
    exact ⟨fun hk => ht.queue k hk hne, fun p hp => ht.calls _ hp hne⟩
  have hdesk : (s.perform e).1.desk = s.desk →
      (s.perform e).1.lifecycleLock.holder = some c ∧ ∀ k, e.actor? ≠ some k →
        (k ∈ s.lifecycleLock.queue → k ∈ (s.perform e).1.lifecycleLock.queue) ∧
        ∀ p, ⟨k, p⟩ ∈ s.calls → ⟨k, p⟩ ∈ (s.perform e).1.calls := by
    intro hsame
    obtain ⟨hlock, hcalls⟩ := same_of_desk hsame
    rw [hlock, hcalls]
    exact ⟨hheld, fun k _ => ⟨fun hk => hk, fun p hp => hp⟩⟩
  cases e with
  | begin d request b => exact hcall rfl (spares_begin hheld (hother rfl) hq request b)
  | poll d b => exact hcall rfl (spares_poll hheld (hother rfl) hq b)
  | initialized d result b => exact hcall rfl (spares_initialized hheld (hother rfl) hq result b)
  | abandon d =>
    refine hcall rfl ?_
    show Spares d s (s.abandon d)
    unfold abandon
    split
    · exact spares_endCall hheld (hother rfl)
    · exact .refl d s
  | unregister task => exact hdesk (desk_unregister s task)
  | pollLoop l now => exact hdesk (desk_pollLoop s l now)
  | ran l now ending => exact hdesk (desk_ran s l now ending)
  | reported l poolName result => exact hdesk (desk_reported s l poolName result)
  | killLoop l => exact hdesk (desk_killLoop s l)
  | cancelRoot => exact hdesk (desk_cancelRoot s)
  | drop => exact absurd rfl hdrop

/-! ## Other loops -/

/-- The loop is running its task. -/
def IsRunning (s : TaskSet κ ξ) (l : LoopId) : Prop := ∃ y ∈ s.loops, y.id = l ∧ y.phase = .running

theorem IsRunning.of_loops (hrun : s.IsRunning l) (h : t.loops = s.loops) : t.IsRunning l := by
  obtain ⟨y, hy, hrunning⟩ := hrun
  exact ⟨y, h ▸ hy, hrunning⟩

theorem IsRunning.setLoop (hrun : s.IsRunning l) {l' : LoopId} (hne : l' ≠ l) (f : Loop → Loop) :
    (s.setLoop l' f).IsRunning l := by
  obtain ⟨y, hy, rfl, hphase⟩ := hrun
  exact ⟨y, List.mem_map.2 ⟨y, hy, by simp [hne.symm]⟩, rfl, hphase⟩

theorem IsRunning.forgetLoop (hrun : s.IsRunning l) {l' : LoopId} (hne : l' ≠ l) :
    (s.forgetLoop l').IsRunning l := by
  unfold TaskSet.forgetLoop
  cases hx : s.loop? l' with
  | none => exact hrun
  | some x =>
    dsimp only
    split
    · obtain ⟨y, hy, rfl, hphase⟩ := hrun
      obtain ⟨hmem, hid⟩ := loop?_eq_some hx
      have hi : s.loops.findIdx (·.id == l') < s.loops.length :=
        List.findIdx_lt_length_of_exists ⟨x, hmem, by simp [hid]⟩
      have hfound : s.loops[s.loops.findIdx (·.id == l')].id = l' := by
        simpa using List.findIdx_getElem (p := fun x : Loop => x.id == l') (w := hi)
      refine ⟨y, mem_swapRemove hy hi fun heq => ?_, rfl, hphase⟩
      rw [heq] at hfound
      exact hne hfound.symm
    · exact hrun

/-- A run goes on when another loop comes to its end. -/
theorem IsRunning.endLoop (hrun : s.IsRunning l) {l' : LoopId} (hne : l' ≠ l) :
    (s.endLoop l').IsRunning l := by
  have hended := (hrun.setLoop hne fun x => { x with phase := .ended }).of_loops
    (loops_wakeDraining _)
  exact (hended.forgetLoop hne).of_loops (loops_forgetRoot _)

theorem IsRunning.cancelLoop (hrun : s.IsRunning l) (l' : LoopId) :
    (s.cancelLoop l').IsRunning l := by
  obtain ⟨y, hy, hid, hphase⟩ := hrun
  unfold TaskSet.cancelLoop
  split
  · refine ⟨_, List.mem_map.2 ⟨y, hy, rfl⟩, ?_⟩
    split
    · exact ⟨hid, hphase⟩
    · exact ⟨hid, hphase⟩
  · exact ⟨y, hy, hid, hphase⟩

theorem IsRunning.cancelRoot (hrun : s.IsRunning l) : s.cancelRoot.IsRunning l := by
  have hfold : ∀ (xs : List Loop) (s : TaskSet κ ξ), s.IsRunning l →
      (xs.foldl (fun s x => s.cancelLoop x.id) s).IsRunning l := by
    intro xs
    induction xs with
    | nil => exact fun s hrun => hrun
    | cons x xs ih => exact fun s hrun => ih _ (hrun.cancelLoop x.id)
  unfold TaskSet.cancelRoot
  split
  · exact hrun
  · exact (hfold _ s hrun).of_loops rfl

theorem IsRunning.rest (hrun : s.IsRunning l) {l' : LoopId} (hne : l' ≠ l) (now : Nat) :
    (s.rest l' now).1.IsRunning l := by
  unfold TaskSet.rest
  split
  · exact hrun
  · split
    · exact hrun.endLoop hne
    · exact hrun.setLoop hne _

theorem IsRunning.pollLoop (hrun : s.IsRunning l) (hids : (s.loops.map (·.id)).Nodup)
    (l' : LoopId) (now : Nat) : (s.pollLoop l' now).1.IsRunning l := by
  unfold TaskSet.pollLoop
  cases hx : s.loop? l' with
  | none => exact hrun
  | some x =>
    obtain ⟨hmem, hid⟩ := loop?_eq_some hx
    have hne : x.phase ≠ .running → l' ≠ l := by
      rintro hphase rfl
      obtain ⟨y, hy, hyid, hrunning⟩ := hrun
      obtain rfl := List.inj_on_of_nodup_map hids hy hmem (hyid.trans hid.symm)
      exact hphase hrunning
    cases hp : x.phase with
    | spawned =>
      simp only [hp]
      have hne := hne (by simp [hp])
      exact IsRunning.rest (s := s.loopRecord .debug "Task loop started."
        [("period_ms", .number x.period.millis)]) hrun hne now
    | waiting deadline =>
      have hne := hne (by simp [hp])
      simp only [hp]
      split
      · exact hrun.endLoop hne
      · split
        · exact hrun.setLoop hne _
        · exact hrun
    | _ => simpa only [hp] using hrun

/-- The run of another task ends, in a set in which nothing is registered. -/
theorem IsRunning.ran (hrun : s.IsRunning l) (hr : s.registry = []) {l' : LoopId} (hne : l' ≠ l)
    (now : Nat) (ending : Ending Unit) : (s.ran l' now ending).1.IsRunning l := by
  have hfail : ∀ {t : TaskSet κ ξ} (task : TaskRef) (error : Fault), t.IsRunning l →
      t.registry = [] → (t.fail l' task error).1.IsRunning l := by
    intro t task error ht hr
    have hnone : t.registry.lookup? task.id = none := by simp [hr, Registry.lookup?]
    unfold TaskSet.fail
    simp only [hnone]
    exact IsRunning.endLoop (s := t.record .debug "Task failed after being removed."
      [("task", .text task.name), ("error", .text error.text)]) ht hne
  rcases ran_cases s l' now ending with ⟨-, heq⟩ | ⟨x, -, ⟨-, heq⟩ | ⟨error, -, heq⟩⟩
  · rwa [heq]
  · rw [heq]
    exact hrun.rest hne now
  · rw [heq]
    split
    · exact IsRunning.endLoop (s := s.warned error) hrun hne
    · exact hfail (t := s.warned error) x.task error hrun hr

/-- A run goes on in a terminated set until it ends or is dropped. -/
theorem isRunning_of_perform (hs : Sound (begun h) s) (hl : s.lifecycle = .terminated)
    (hall : allows h s e = true) (hrun : s.IsRunning l)
    (hran : ∀ now ending, e ≠ .ran l now ending) (hkill : e ≠ .killLoop l) :
    (s.perform e).1.IsRunning l := by
  have hr := hs.empty hl
  cases hc : e.caller? with
  | some c =>
    obtain ⟨r, hperform, hloops, -⟩ := turn_of_caller hs hl hall hc
    rw [hperform]
    exact hrun.of_loops hloops
  | none =>
    cases e with
    | abandon c =>
      show (s.abandon c).IsRunning l
      unfold abandon
      split
      · exact hrun.of_loops (loops_endCall s c)
      · exact hrun
    | unregister task =>
      have hsame : (s.unregister task).1 = s := by simp [unregister, hr, Registry.lookup?]
      exact hsame.symm ▸ hrun
    | pollLoop l' now => exact hrun.pollLoop hs.loopIds l' now
    | ran l' now ending =>
      exact hrun.ran hr (fun hid => hran now ending (hid ▸ rfl)) now ending
    | reported l' poolName result =>
      have hne : l' ≠ l := by
        rintro rfl
        obtain ⟨x, hx, hid, hreporting⟩ := allows_reported.1 hall
        obtain ⟨y, hy, hyid, hrunning⟩ := hrun
        obtain rfl := List.inj_on_of_nodup_map hs.loopIds hx hy (hid.trans hyid.symm)
        simp [hreporting] at hrunning
      cases result with
      | ok _ => exact hrun.endLoop hne
      | error e =>
        exact IsRunning.endLoop (s := s.record .error "Failed to submit task error callback."
          [("pool", .text poolName), ("error", .text e.message)]) hrun hne
    | killLoop l' =>
      have hne : l' ≠ l := fun hid => hkill (hid ▸ rfl)
      show (s.killLoop l').IsRunning l
      unfold killLoop
      split
      · exact hrun
      · split
        · exact hrun
        · exact hrun.endLoop hne
    | cancelRoot => exact hrun.cancelRoot
    | drop =>
      show s.drop.IsRunning l
      rw [drop_terminated hl hr]
      exact hrun.of_loops (loops_forgetRoot { s with dropped := true })
    | _ => simp [SetEvent.caller?] at hc

end TaskSet

end Overseer
