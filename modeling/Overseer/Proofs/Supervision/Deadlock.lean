import Overseer.Proofs.Supervision.Bystanders

/-!
# Destroy and the tasks that register

A task may register another one from inside its run. The run is over only when that call is, and a
destroy call that waits for the loops to end keeps the lifecycle lock, which the call needs. So each
waits for the other (`Deadlocked`), and unless one of the two is abandoned, they wait forever
(`Deadlocked.perform`).

`Nested` says which calls are made from inside runs. A set is `Stuck` if nothing can go on, a
destroy call is in progress and every loop that is left is inside such a call. That can be reached
(`destroy_deadlocks`). When nothing can go on, it is the case exactly if every loop that is left has
called `register` from inside its run and no task is being initialized (`stuck_iff`).
-/

namespace Overseer

variable {κ ξ : Type}

namespace TaskSet

variable {s t u : TaskSet κ ξ} {us : List CallId} {c d k : CallId} {now : Nat}
  {p : CallPhase κ ξ} {h pre post : List (SetOccurrence κ ξ)} {o : SetOccurrence κ ξ}
  {e : SetEvent κ ξ} {dd : Option Deed} {inside : CallId → Option LoopId}

/-! ## Loops of a terminated set -/

/-- A destroy call stops every loop. -/
theorem stopped_cleared (hs : Sound us s) (hd : s.dropped = false)
    (hl : s.lifecycle ≠ .terminated) : ∀ y ∈ s.cleared.loops, y.isLive = false := by
  intro y hy
  obtain ⟨torn, hgo⟩ := goesOn_cleared s
  obtain ⟨x, hx, hyx⟩ := hgo.loops y hy
  refine hyx.stopped ?_
  by_cases hstarted : s.lifecycle = .started
  · have hx' : x ∈ s.cancelRoot.loops := by simpa [hstarted] using hx
    exact (hs.goesOn (goesOn_cancelRoot s)).halted
      (rootCancelled_cancelRoot (hs.rooted hstarted hd)) x hx'
  · have hx' : x ∈ s.loops := by simpa [hstarted] using hx
    simp [hs.loops_eq_nil hstarted hl] at hx'

/-- No move starts a loop in a terminated set, or lets one go on that was stopped. -/
theorem Move.stopped (h : Move s dd t) (hl : s.lifecycle = .terminated)
    (hstop : ∀ x ∈ s.loops, x.isLive = false) : ∀ y ∈ t.loops, y.isLive = false := by
  have hfollow : ∀ {torn : List TaskRef} {u : TaskSet κ ξ}, GoesOn torn u t → u.loops = s.loops →
      ∀ y ∈ t.loops, y.isLive = false := by
    intro torn u hgo hloops y hy
    obtain ⟨x, hx, hyx⟩ := hgo.loops y hy
    exact hyx.stopped (hstop x (hloops ▸ hx))
  cases h with
  | goesOn h => exact hfollow h rfl
  | starts p hc hl' => exact absurd hl hl'
  | enrolls hc hp hr => simp [refusal?, hl] at hr
  | refuses hc h => exact hfollow h rfl
  | removes way id hr hw h _ => exact hfollow h rfl
  | displaces id hr hl' h => exact hfollow h rfl
  | demolishes h _ => exact hfollow h rfl
  | drops hc h _ => exact hfollow h rfl
  | _ => exact hstop

theorem loops_entered (s : TaskSet κ ξ) (e : SetEvent κ ξ) : (s.entered e).loops = s.loops := by
  cases e <;> rfl

/-- Every loop of a terminated set has been stopped. -/
theorem stopped_of_run (hrun : (setSystem κ ξ).Run h s) : s.lifecycle = .terminated →
    ∀ y ∈ s.loops, y.isLive = false := by
  induction hrun with
  | start hstart =>
    obtain ⟨name, pool, rfl⟩ := hstart
    exact fun hl => by contradiction
  | @next h s e hrun hall ih =>
    intro hl
    have hs := sound_of_run hrun
    by_cases hold : s.lifecycle = .terminated
    · obtain ⟨d, hcourse, -⟩ := course_of_perform hs hall
      refine (hcourse.keeps (P := fun s => s.lifecycle = .terminated ∧
        ∀ x ∈ s.loops, x.isLive = false) (fun hm hst => ⟨hm.terminated hst.1,
          hm.stopped hst.1 hst.2⟩) ⟨(lifecycle_entered s e).trans hold, ?_⟩).2
      rw [loops_entered]
      exact ih hold
    · -- the event destroys the set
      obtain ⟨u, hgo, horderly, hgoes⟩ := goes_of_perform hs hall
      have hu : u.lifecycle ≠ .terminated := by
        rw [hgo.lifecycle, lifecycle_entered]
        exact hold
      have hl' : (s.perform e).1.lifecycle = .terminated := hl
      show ∀ y ∈ (s.perform e).1.loops, y.isLive = false
      generalize (s.perform e).1 = t at hgoes hl'
      cases hgoes with
      | tends htends => exact absurd (htends.terminated hl') hu
      | @demolishes c hc =>
        have hdropped : u.dropped = false := by
          refine Bool.eq_false_iff.2 fun hd => ?_
          have hnone := (horderly (orderly_of_run hrun)).dropped hd
          simp [hnone] at hc
        have hstopped := stopped_cleared ((hs.entered hall).goesOn hgo) hdropped hu
        rw [demolish_eq]
        split
        · exact (loops_endCall u.cleared c).symm ▸ hstopped
        · exact hstopped

/-! ## Calls from inside runs -/

/-- A call from inside a run begins while the task is running, and the run does not end before it,
in whichever way. `inside` tells in whose run a call is made. -/
def isNested (inside : CallId → Option LoopId) (o : SetOccurrence κ ξ) : Bool :=
  match o.event with
  | .begin c _ _ =>
    (inside c).all fun l => o.before.loops.any fun x => x.id == l && x.phase == .running
  | .ran l _ _ => o.before.calls.all fun x => inside x.id != some l
  | .killLoop l => o.before.calls.all fun x => inside x.id != some l
  | _ => true

/-- What tasks promise about the calls that they make from inside their runs. -/
def Nested (inside : CallId → Option LoopId) (h : List (SetOccurrence κ ξ)) : Prop :=
  ∀ o ∈ h, isNested inside o = true

/-- A run goes on as long as a call from inside it is in progress. -/
theorem run_goes_on_of_isNested (hnested : isNested inside ⟨s, e⟩ = true) {x : Call κ ξ}
    (hx : x ∈ s.calls) {l : LoopId} (hinside : inside x.id = some l) :
    (∀ now ending, e ≠ .ran l now ending) ∧ e ≠ .killLoop l := by
  constructor
  · rintro now ending rfl
    have hno : ∀ x ∈ s.calls, inside x.id ≠ some l := by simpa [isNested] using hnested
    exact hno x hx hinside
  · rintro rfl
    have hno : ∀ x ∈ s.calls, inside x.id ≠ some l := by simpa [isNested] using hnested
    exact hno x hx hinside

/-- Nothing can go on, a destroy call is in progress, and every loop that is left waits for the
lifecycle lock from inside its run. -/
structure Stuck (inside : CallId → Option LoopId) (now : Nat) (s : TaskSet κ ξ) : Prop where
  still : IsStill s now
  idle : ∀ x ∈ s.calls, x.phase.initTicket? = none
  destroying : ∃ x ∈ s.calls, x.phase.kind = .destroy
  suspended : ∀ y ∈ s.loops, y.phase ≠ .ended → y.phase = .running ∧
    ∃ x ∈ s.calls, inside x.id = some y.id ∧ x.phase.kind = .register ∧
      x.id ∈ s.lifecycleLock.queue

/-- The destroy call `c` waits for the end of a run that waits for the call `k`, which waits for the
lock that `c` has. -/
structure Deadlocked (inside : CallId → Option LoopId) (c k : CallId) (s : TaskSet κ ξ) : Prop where
  holder : s.lifecycleLock.holder = some c
  draining : ⟨c, .draining⟩ ∈ s.calls
  waiting : k ∈ s.lifecycleLock.queue
  running : ∃ l, inside k = some l ∧ s.IsRunning l

theorem wantsLifecycle_of_destroy (hp : p.kind = .destroy) : p.wantsLifecycle = true := by
  cases p with
  | demolishing => rfl
  | draining => rfl
  | _ => simp [CallPhase.kind] at hp

/-- A registration wants the lifecycle lock unless its task is being initialized. -/
theorem wantsLifecycle_of_register (hp : p.kind = .register) (hinit : p.initTicket? = none) :
    p.wantsLifecycle = true := by
  cases p with
  | admitting r => rfl
  | initializing r => simp [CallPhase.initTicket?] at hinit
  | readmitting r => rfl
  | _ => simp [CallPhase.kind] at hp

theorem kind_ne_of_holder (ho : Orderly s) (hdraining : ⟨d, .draining⟩ ∈ s.calls)
    (hc : ⟨c, p⟩ ∈ s.calls) (hp : p.kind = .register) : c ≠ d := by
  rintro rfl
  have hsame := ho.phase_eq hc hdraining
  subst hsame
  simp [CallPhase.kind] at hp

/-- Who wants a lock and does not have it waits for it. -/
theorem mem_queue_of_wants (ho : Orderly s) (hheld : s.lifecycleLock.holder = some d)
    (hc : ⟨c, p⟩ ∈ s.calls) (hw : p.wantsLifecycle = true) (hne : c ≠ d) :
    c ∈ s.lifecycleLock.queue := by
  have hclaims := (ho.lifecycle.mem c).2 ⟨p, hc, hw⟩
  simpa [Lock.claimants, hheld, hne] using hclaims

/-- The loops that are left when nothing can go on in a terminated set are inside their runs, or
hand an error over. -/
theorem phase_of_still (hstill : IsStill s now) (ho : Orderly s)
    (hids : (s.loops.map (·.id)).Nodup) (hstop : ∀ y ∈ s.loops, y.isLive = false) :
    ∀ y ∈ s.loops, y.phase = .ended ∨ y.phase = .running ∨ y.phase = .reporting := by
  intro y hy
  have hdue := ((isStill_iff ho hids).1 hstill).2 y hy
  have hlive := hstop y hy
  unfold Loop.isDue at hdue
  cases hp : y.phase with
  | spawned => simp [hp] at hdue
  | waiting deadline =>
    have hcancelled : y.cancelled = true := by simpa [Loop.isLive, Loop.isPolling, hp] using hlive
    simp [hp, hcancelled] at hdue
  | running => exact .inr (.inl rfl)
  | reporting => exact .inr (.inr rfl)
  | ended => exact .inl rfl

/-- When nothing can go on while a destroy call is in progress, registrations that are not being
initialized wait for the lock. -/
theorem stuck_iff (hstill : IsStill s now) (ho : Orderly s)
    (hdestroying : ∃ x ∈ s.calls, x.phase.kind = .destroy) : Stuck inside now s ↔
      (∀ x ∈ s.calls, x.phase.initTicket? = none) ∧
      ∀ y ∈ s.loops, y.phase ≠ .ended → y.phase = .running ∧
        ∃ x ∈ s.calls, inside x.id = some y.id ∧ x.phase.kind = .register := by
  constructor
  · intro hstuck
    refine ⟨hstuck.idle, fun y hy hleft => ?_⟩
    obtain ⟨hrunning, x, hx, hinside, hk, -⟩ := hstuck.suspended y hy hleft
    exact ⟨hrunning, x, hx, hinside, hk⟩
  · rintro ⟨hidle, hsuspended⟩
    obtain ⟨z, hz, hzk⟩ := hdestroying
    obtain ⟨d, hheld, hdraining, -⟩ :=
      hstill.draining ho ⟨z.phase, hz, wantsLifecycle_of_destroy hzk⟩
    refine ⟨hstill, hidle, ⟨z, hz, hzk⟩, fun y hy hleft => ?_⟩
    obtain ⟨hrunning, x, hx, hinside, hk⟩ := hsuspended y hy hleft
    exact ⟨hrunning, x, hx, hinside, hk, mem_queue_of_wants ho hheld hx
      (wantsLifecycle_of_register hk (hidle x hx)) (kind_ne_of_holder ho hdraining hx hk)⟩

/-- A loop is left when nothing can go on while a destroy call is in progress. -/
theorem IsStill.left (hstill : IsStill s now) (ho : Orderly s)
    (hdestroying : ∃ x ∈ s.calls, x.phase.kind = .destroy) :
    ∃ c, s.lifecycleLock.holder = some c ∧ ⟨c, .draining⟩ ∈ s.calls ∧
      ∃ y ∈ s.loops, y.phase ≠ .ended := by
  obtain ⟨x, hx, hk⟩ := hdestroying
  obtain ⟨c, hheld, hdraining, hq⟩ :=
    hstill.draining ho ⟨x.phase, hx, wantsLifecycle_of_destroy hk⟩
  obtain ⟨y, hy, hleft⟩ := List.all_eq_false.1 hq
  exact ⟨c, hheld, hdraining, y, hy, by simpa using hleft⟩

theorem Stuck.deadlocked (hstuck : Stuck inside now s) (ho : Orderly s) :
    ∃ c k, Deadlocked inside c k s := by
  obtain ⟨c, hheld, hdraining, y, hy, hleft⟩ := hstuck.still.left ho hstuck.destroying
  obtain ⟨hrunning, x, -, hinside, -, hqueued⟩ := hstuck.suspended y hy hleft
  exact ⟨c, x.id, hheld, hdraining, hqueued, y.id, hinside, y, hy, rfl, hrunning⟩

/-! ## No way out -/

/-- A call that has nothing to do just waits when it gets its turn. -/
theorem perform_of_waiting (hs : Sound (begun h) s) (ho : Orderly s) (hc : ⟨c, p⟩ ∈ s.calls)
    (hw : p.wantsLifecycle = true) (hgo : s.canGoOn ⟨c, p⟩ = false) (hall : allows h s e = true)
    (hactor : e.actor? = some c) (hstays : e ≠ .abandon c) : s.perform e = (s, .call .wait) := by
  have hx := ho.call?_of_mem hc
  cases e with
  | begin d request b =>
    obtain rfl := Option.some.inj hactor
    exact absurd (hs.calls _ hc) (allows_begin.1 hall).2
  | poll d b =>
    obtain rfl := Option.some.inj hactor
    have hwait := poll_of_not_canGoOn hx hgo b
    simp only [perform, hwait]
  | initialized d result b =>
    obtain rfl := Option.some.inj hactor
    have hwait : s.initialized d result b = (s, .wait) := by
      unfold initialized
      simp only [hx]
      cases p with
      | initializing r => simp [CallPhase.wantsLifecycle] at hw
      | preparing current rest => simp [CallPhase.wantsLifecycle] at hw
      | _ => rfl
    simp only [perform, hwait]
  | abandon d =>
    obtain rfl := Option.some.inj hactor
    exact absurd rfl hstays
  | _ => simp [SetEvent.actor?] at hactor

/-- A deadlock stays, and neither call returns, unless one of the two is abandoned. -/
theorem Deadlocked.perform (hd : Deadlocked inside c k s) (hs : Sound (begun h) s)
    (ho : Orderly s) (hall : allows h s e = true) (hnested : isNested inside ⟨s, e⟩ = true)
    (hc : e ≠ .abandon c) (hk : e ≠ .abandon k) : Deadlocked inside c k (s.perform e).1 ∧
      ∀ result, ¬Returns ⟨s, e⟩ c result ∧ ¬Returns ⟨s, e⟩ k result := by
  obtain ⟨hheld, hdraining, hqueued, l, hinside, hrunning⟩ := hd
  have hq : s.isQuiet = false := by
    obtain ⟨y, hy, -, hphase⟩ := hrunning
    exact List.all_eq_false.2 ⟨y, hy, by simp [hphase]⟩
  have hclaims : s.lifecycleLock.claimants = c :: s.lifecycleLock.queue := by
    simp [Lock.claimants, hheld]
  have hne : k ≠ c := by
    have hnodup := ho.lifecycle.nodup
    rw [hclaims] at hnodup
    exact fun hkc => (List.nodup_cons.1 hnodup).1 (hkc ▸ hqueued)
  obtain ⟨p, hp, hw⟩ : s.Wants CallPhase.wantsLifecycle k :=
    (ho.lifecycle.mem k).1 (hclaims ▸ List.mem_cons_of_mem _ hqueued)
  have hstays : s.perform e = (s, .call .wait) → Deadlocked inside c k (s.perform e).1 ∧
      ∀ result, ¬Returns ⟨s, e⟩ c result ∧ ¬Returns ⟨s, e⟩ k result := by
    intro hwait
    have hno : ∀ {d result}, ¬Returns ⟨s, e⟩ d result := by
      rintro d result ⟨-, hret⟩
      have hturn := (congrArg Prod.snd hwait).symm.trans hret
      simp at hturn
    exact ⟨hwait.symm ▸ ⟨hheld, hdraining, hqueued, l, hinside, hrunning⟩,
      fun result => ⟨hno, hno⟩⟩
  by_cases hcturn : e.actor? = some c
  · exact hstays (perform_of_waiting hs ho hdraining rfl hq hall hcturn hc)
  by_cases hkturn : e.actor? = some k
  · have hgo : s.canGoOn ⟨k, p⟩ = false := by
      refine Bool.eq_false_iff.2 fun hgo => ?_
      obtain rfl : p = .queued := phase_of_canGoOn hheld hne.symm hq hgo
      simp [CallPhase.wantsLifecycle] at hw
    exact hstays (perform_of_waiting hs ho hp hw hgo hall hkturn hk)
  -- the event is about somebody else, and the run goes on
  have hdrop : e ≠ .drop := by
    rintro rfl
    obtain ⟨-, hnone, -⟩ := allows_drop.1 hall
    simp [hnone] at hp
  obtain ⟨hran, hkill⟩ := run_goes_on_of_isNested hnested hp hinside
  obtain ⟨hheld', hothers⟩ := spares_of_perform hheld hq hcturn hdrop
  refine ⟨⟨hheld', (hothers c hcturn).2 _ hdraining, (hothers k hkturn).1 hqueued, l, hinside,
    isRunning_of_perform hs (ho.drains c hdraining) hall hrunning hran hkill⟩, fun result => ?_⟩
  exact ⟨fun hret => hcturn (SetEvent.actor?_of_caller? hret.1),
    fun hret => hkturn (SetEvent.actor?_of_caller? hret.1)⟩

/-! ## Histories -/

/-- A deadlock lasts, whatever happens, until one of the two calls is abandoned. -/
theorem Deadlocked.lasts (hrun : (setSystem κ ξ).Run h s) (heq : h = pre ++ o :: post)
    (hd : Deadlocked inside c k ((setSystem κ ξ).after o))
    (hpost : ∀ o' ∈ post, isNested inside o' = true ∧ o'.event ≠ .abandon c ∧
      o'.event ≠ .abandon k) :
    Deadlocked inside c k s ∧
      ∀ o' ∈ post, ∀ result, ¬Returns o' c result ∧ ¬Returns o' k result := by
  refine hrun.since (P := fun post s => (∀ o' ∈ post, isNested inside o' = true ∧
    o'.event ≠ .abandon c ∧ o'.event ≠ .abandon k) → Deadlocked inside c k s ∧
      ∀ o' ∈ post, ∀ result, ¬Returns o' c result ∧ ¬Returns o' k result) ?_ ?_ heq hpost
  · exact fun _ => ⟨hd, fun o' ho' => absurd ho' List.not_mem_nil⟩
  · intro post s e hrun hall ih hpost
    obtain ⟨hd, hsilent⟩ := ih fun o' ho' => hpost o' (List.mem_append_left _ ho')
    obtain ⟨hnested, hc, hk⟩ := hpost ⟨s, e⟩ (by simp)
    obtain ⟨hd', hnow⟩ :=
      hd.perform (sound_of_run hrun) (orderly_of_run hrun) hall hnested hc hk
    refine ⟨{ hd' with }, fun o' ho' => ?_⟩
    rcases List.mem_append.1 ho' with ho' | ho'
    · exact hsilent o' ho'
    · exact List.mem_singleton.1 ho' ▸ hnow

/-- When nothing can go on while a destroy call is in progress, only runs and reports are left. The
set is stuck exactly if no task is being initialized and every loop that is left has called
`register` from inside its run. A destroy call and a registration of a stuck set wait for each
other, and will until one of them is abandoned. -/
theorem deadlock_of_run (hrun : (setSystem κ ξ).Run h s) (hnested : Nested inside h) :
    (∀ now, IsStill s now → (∃ x ∈ s.calls, x.phase.kind = .destroy) →
      (∃ y ∈ s.loops, y.phase ≠ .ended) ∧
      (∀ y ∈ s.loops, y.phase = .ended ∨ y.phase = .running ∨ y.phase = .reporting) ∧
      (Stuck inside now s ↔ (∀ x ∈ s.calls, x.phase.initTicket? = none) ∧
        ∀ y ∈ s.loops, y.phase ≠ .ended → y.phase = .running ∧
          ∃ x ∈ s.calls, inside x.id = some y.id ∧ x.phase.kind = .register)) ∧
    (∀ now, Stuck inside now s → ∃ c k, Deadlocked inside c k s) ∧
    ∀ pre o post c k, h = pre ++ o :: post → Deadlocked inside c k ((setSystem κ ξ).after o) →
      (∀ o' ∈ post, o'.event ≠ .abandon c ∧ o'.event ≠ .abandon k) →
        Deadlocked inside c k s ∧
          ∀ o' ∈ post, ∀ result, ¬Returns o' c result ∧ ¬Returns o' k result := by
  have ho := orderly_of_run hrun
  have hids := (sound_of_run hrun).loopIds
  refine ⟨fun now hstill hdestroying => ?_, fun now hstuck => hstuck.deadlocked ho, ?_⟩
  · obtain ⟨c, -, hdraining, hleft⟩ := hstill.left ho hdestroying
    have hstop := stopped_of_run hrun (ho.drains c hdraining)
    exact ⟨hleft, phase_of_still hstill ho hids hstop, stuck_iff hstill ho hdestroying⟩
  · intro pre o post c k heq hd hpost
    refine Deadlocked.lasts hrun heq hd fun o' ho' => ⟨hnested o' ?_, hpost o' ho'⟩
    rw [heq]
    exact List.mem_append_right _ (List.mem_cons_of_mem _ ho')

/-! ## A deadlock -/

/-- A set is started with a task whose run registers another one, and destroyed meanwhile. -/
def registeringRun : List (SetEvent Unit Unit) :=
  [.begin 0 (.register ⟨0, "a"⟩ [] {} none ()) false, .begin 1 .init false,
    .initialized 1 (.ok ()) false, .pollLoop 0 0, .pollLoop 0 1, .begin 2 .destroy false,
    .begin 3 (.register ⟨1, "b"⟩ [] {} none ()) false]

/-- The fourth call is made from inside the run of the first loop. -/
def insideFirst (c : CallId) : Option LoopId := if c = 3 then some 0 else none

/-- The run keeps what tasks promise, and at its end nothing can go on. -/
def standsStill (h : List (SetOccurrence Unit Unit)) (s : TaskSet Unit Unit) : Bool :=
  h.all (isNested insideFirst) && s.calls.all (fun x => !s.canGoOn x) &&
    s.loops.all (fun x => !x.isDue 1) && s.calls.any (fun x => x.phase.kind == .destroy) &&
    s.calls.all (fun x => x.phase.initTicket?.isNone) &&
    s.loops.all fun y => y.phase == .running &&
      s.calls.any fun x => insideFirst x.id == some y.id && x.phase.kind == .register

theorem stuck_of_standsStill {h : List (SetOccurrence Unit Unit)} {s : TaskSet Unit Unit}
    (hrun : (setSystem Unit Unit).Run h s) (hcheck : standsStill h s = true) :
    Nested insideFirst h ∧ Stuck insideFirst 1 s := by
  simp only [standsStill, Bool.and_eq_true, List.all_eq_true, List.any_eq_true, Bool.not_eq_true',
    beq_iff_eq, Option.isNone_iff_eq_none] at hcheck
  obtain ⟨⟨⟨⟨⟨hnested, hcalls⟩, hloops⟩, hdestroying⟩, hidle⟩, hsuspended⟩ := hcheck
  have ho := orderly_of_run hrun
  have hstill := (isStill_iff ho (sound_of_run hrun).loopIds).2 ⟨hcalls, hloops⟩
  exact ⟨hnested, (stuck_iff hstill ho hdestroying).2 ⟨hidle, fun y hy _ => hsuspended y hy⟩⟩

/-- The deadlock of `registeringRun` outlasts turns of everybody. -/
theorem deadlock_of_run_registering : ∃ (h : List (SetOccurrence Unit Unit))
    (s : TaskSet Unit Unit), (setSystem Unit Unit).Run h s ∧ Nested insideFirst h ∧
      h.length = 10 ∧ Stuck insideFirst 1 s ∧
      (∀ now, IsStill s now → (∃ x ∈ s.calls, x.phase.kind = .destroy) →
        (∃ y ∈ s.loops, y.phase ≠ .ended) ∧
        (∀ y ∈ s.loops, y.phase = .ended ∨ y.phase = .running ∨ y.phase = .reporting) ∧
        (Stuck insideFirst now s ↔ (∀ x ∈ s.calls, x.phase.initTicket? = none) ∧
          ∀ y ∈ s.loops, y.phase ≠ .ended → y.phase = .running ∧
            ∃ x ∈ s.calls, insideFirst x.id = some y.id ∧ x.phase.kind = .register)) ∧
      (∀ now, Stuck insideFirst now s → ∃ c k, Deadlocked insideFirst c k s) ∧
      ∀ pre o post c k, h = pre ++ o :: post →
        Deadlocked insideFirst c k ((setSystem Unit Unit).after o) →
          (∀ o' ∈ post, o'.event ≠ .abandon c ∧ o'.event ≠ .abandon k) →
            Deadlocked insideFirst c k s ∧
              ∀ o' ∈ post, ∀ result, ¬Returns o' c result ∧ ¬Returns o' k result := by
  obtain ⟨h, s, hrun, hcheck⟩ := System.exists_run_of_replay (S := setSystem Unit Unit)
    (starts_new "s" none) (registeringRun ++ [.poll 2 false, .poll 3 false, .pollLoop 0 1])
    (fun h s => standsStill h s && h.length == 10) (by decide +kernel)
  obtain ⟨hcheck, hlen⟩ := Bool.and_eq_true_iff.1 hcheck
  obtain ⟨hnested, hstuck⟩ := stuck_of_standsStill hrun hcheck
  exact ⟨h, s, hrun, hnested, by simpa using hlen, hstuck, deadlock_of_run hrun hnested⟩

/-- A set can be stuck. -/
theorem destroy_deadlocks : ¬ ∀ (inside : CallId → Option LoopId)
    (h : List (SetOccurrence Unit Unit)) (s : TaskSet Unit Unit), (setSystem Unit Unit).Run h s →
      Nested inside h → ∀ now, ¬Stuck inside now s := by
  obtain ⟨h, s, hrun, hcheck⟩ := System.exists_run_of_replay (S := setSystem Unit Unit)
    (starts_new "s" none) registeringRun standsStill (by decide +kernel)
  obtain ⟨hnested, hstuck⟩ := stuck_of_standsStill hrun hcheck
  exact fun hnever => hnever insideFirst h s hrun hnested 1 hstuck

end TaskSet

end Overseer
