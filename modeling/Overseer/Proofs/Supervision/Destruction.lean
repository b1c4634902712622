import Overseer.Proofs.Supervision.Stillness

/-!
# Destroy is final

A destroy call returns when every loop has ended, and it leaves a set that is terminated
(`quiet_of_returned`). From then on the registry is empty and no loop goes on (`IsDestroyed`).
Calls that were in progress meanwhile can only fail, and those that come later hear that the set is
terminated (`IsInert`).

Who comes later need not wait for it, either (`waits_of_still`) : once nothing can go on, none of
them is left but a startup behind an older startup that is still initializing its last task.
-/

namespace Overseer

variable {κ ξ : Type}

namespace TaskSet

variable {s t : TaskSet κ ξ} {c : CallId} {h pre post : List (SetOccurrence κ ξ)}
  {o : SetOccurrence κ ξ} {e : SetEvent κ ξ} {old : List CallId} {now : Nat}

/-- The set has been destroyed. The calls `old` are from before that. -/
structure IsDestroyed (old : List CallId) (s : TaskSet κ ξ) : Prop where
  terminated : s.lifecycle = .terminated
  registry : s.registry = []
  quiet : s.isQuiet = true
  late : ∀ x ∈ s.calls, x.id ∉ old → x.phase.isNew = true

/-- Nothing begins, and calls are refused. The calls `old` are from before the set was
destroyed. -/
structure IsInert (h : List (SetOccurrence κ ξ)) (old : List CallId) (o : SetOccurrence κ ξ) :
    Prop where
  noRun : ∀ task, (o.before.perform o.event).2 ≠ .loop (.run task)
  noInit : ∀ task args, (o.before.perform o.event).2 ≠ .call (.callInit task args)
  refuses : ∀ c k result, Began h c k → k ≠ .destroy → Returns o c result →
    result = .error .terminated ∨ ∃ task source, result = .error (.initFailed task source)
  late : ∀ c k result, Began h c k → k ≠ .destroy → c ∉ old → Returns o c result →
    result = .error .terminated

/-! ## Events in a destroyed set -/

theorem IsDestroyed.entered (hd : IsDestroyed old s) (e : SetEvent κ ξ) :
    ∀ x ∈ (s.entered e).calls, x.id ∉ old → x.phase.isNew = true := by
  intro x hx hold
  rcases mem_entered hx with hx | ⟨c, request, b, -, rfl⟩
  · exact hd.late x hx hold
  · exact request.isNew_phase c

theorem IsDestroyed.perform (hd : IsDestroyed old s) (hs : Sound (begun h) s)
    (hall : allows h s e = true) : IsDestroyed old (s.perform e).1 := by
  obtain ⟨d, hcourse, -⟩ := course_of_perform hs hall
  have hl : (s.entered e).lifecycle = .terminated := (lifecycle_entered s e).trans hd.terminated
  have hl' := hcourse.terminated hl
  refine ⟨hl', (hcourse.sound (hs.entered hall)).empty hl',
    (quiet_of_perform hs hd.terminated hd.quiet hall).1, fun y hy hold => ?_⟩
  obtain ⟨x, hx, hyx⟩ := hcourse.continues y hy
  exact hyx.isNew hl (hd.entered e x hx (hyx.id ▸ hold))

theorem IsDestroyed.inert (hd : IsDestroyed old s) (hrun : (setSystem κ ξ).Run h s)
    (hall : allows h s e = true) {h' : List (SetOccurrence κ ξ)}
    (hrun' : (setSystem κ ξ).Run (h ++ [⟨s, e⟩] ++ h') t) :
    IsInert (h ++ [⟨s, e⟩] ++ h') old ⟨s, e⟩ := by
  have hs := sound_of_run hrun
  have hends : ∀ c k result, Began (h ++ [⟨s, e⟩] ++ h') c k → Returns ⟨s, e⟩ c result →
      ∃ p, ⟨c, p⟩ ∈ (s.entered e).calls ∧ p.kind = k ∧ p.Ends result := by
    intro c k result hbegan hret
    obtain ⟨r, hperform, -, hends⟩ := turn_of_caller hs hd.terminated hall hret.1
    have hreturned : r.2 = .returned result :=
      SetAnswer.call.inj ((congrArg Prod.snd hperform).symm.trans hret.2)
    obtain ⟨p, hp, hend⟩ := hends result hreturned
    have hkind := (kind_entered (kind_of_run hrun) ⟨c, p⟩ hp).append h'
    exact ⟨p, hp, hkind.unique hrun' hbegan, hend⟩
  refine ⟨(quiet_of_perform hs hd.terminated hd.quiet hall).2,
    not_callInit hs hd.terminated hall, ?_, ?_⟩
  · intro c k result hbegan hk hret
    obtain ⟨p, -, rfl, hend⟩ := hends c k result hbegan hret
    exact hend.refused hk
  · intro c k result hbegan hk hold hret
    obtain ⟨p, hp, rfl, hend⟩ := hends c k result hbegan hret
    exact hend.terminated hk (hd.entered e ⟨c, p⟩ hp hold)

/-! ## Who is left -/

/-- When nothing can go on in a destroyed set, a call that came later waits behind a startup that
is initializing a task, and that came before. -/
theorem waits_of_still (hd : IsDestroyed old s) (ho : Orderly s) (hstill : IsStill s now)
    {p : CallPhase κ ξ} (hc : ⟨c, p⟩ ∈ s.calls) (hold : c ∉ old) : p = .queued ∧
      ∃ d ∈ old, ∃ current rest, s.startupLock.holder = some d ∧
        ⟨d, .preparing current rest⟩ ∈ s.calls := by
  -- who has the lifecycle lock of a still set waits for loops, and none is left
  have hfree : ∀ c, ¬s.Wants CallPhase.wantsLifecycle c := by
    intro c hwants
    obtain ⟨d, -, -, hloops⟩ := hstill.draining ho hwants
    simp [hd.quiet] at hloops
  have hqueued : p = .queued := by
    have hno : p.wantsLifecycle = false :=
      Bool.eq_false_iff.2 fun hw => hfree c ⟨p, hc, hw⟩
    have hnew : p.isNew = true := hd.late _ hc hold
    cases p with
    | queued => rfl
    | initializing r => simp [CallPhase.isNew, CallPhase.isLate] at hnew
    | preparing current rest => simp [CallPhase.isNew, CallPhase.isStartup] at hnew
    | _ => simp [CallPhase.wantsLifecycle] at hno
  subst hqueued
  obtain ⟨d, hheld, q, hq, hw⟩ := ho.startup.held ⟨.queued, hc, rfl⟩
  have hno : q.wantsLifecycle = false := Bool.eq_false_iff.2 fun hw => hfree d ⟨q, hq, hw⟩
  cases q with
  | queued =>
    have hstuck := not_canGoOn_of_poll ho (ho.call?_of_mem hq) (hstill.calls d false)
    simp [canGoOn, Lock.isHeldBy, hheld] at hstuck
  | preparing current rest =>
    refine ⟨rfl, d, ?_, current, rest, hheld, hq⟩
    by_contra hnew
    exact absurd (hd.late _ hq hnew) (by simp [CallPhase.isNew, CallPhase.isStartup])
  | initializing r => simp [CallPhase.wantsStartup] at hw
  | _ => simp [CallPhase.wantsLifecycle] at hno

/-! ## Histories -/

theorem destroyed_of_run (hrun : (setSystem κ ξ).Run h s) (heq : h = pre ++ o :: post)
    (hbegan : Began (pre ++ [o]) c .destroy) {result : Except SupervisionError Unit}
    (hret : Returns o c result) : IsDestroyed (begun (pre ++ [o])) s := by
  obtain ⟨hpre, hall, hafter⟩ := hrun.split heq
  have hkind : ∀ p, ⟨c, p⟩ ∈ (o.before.entered o.event).calls → p.kind = .destroy := fun p hp =>
    (kind_entered (kind_of_run hpre) ⟨c, p⟩ hp).unique hafter hbegan
  obtain ⟨hl, hq⟩ := quiet_of_returned (sound_of_run hpre) (orderly_of_run hpre) hall hkind hret
  have hs := sound_of_run hafter
  refine hrun.since (P := fun _ s => IsDestroyed (begun (pre ++ [o])) s) ?_ ?_ heq
  · exact ⟨hl, hs.empty hl, hq, fun x hx hold => absurd (hs.calls x hx) hold⟩
  · intro post s e hrun hall hd
    exact { hd.perform (sound_of_run hrun) hall with }

/-- Once a destroy call has returned, nothing is registered and no loop is left, nothing is run
or initialized any more, and calls fail. Those that begin later hear that the set is terminated:
when nothing can go on, none of them is in progress but a startup behind an older one that is
initializing a task. -/
theorem destroy_is_final (hrun : (setSystem κ ξ).Run h s) (heq : h = pre ++ o :: post)
    (hbegan : Began (pre ++ [o]) c .destroy) {result : Except SupervisionError Unit}
    (hret : Returns o c result) :
    s.registry = [] ∧ s.isQuiet = true ∧ (∀ o' ∈ post, IsInert h (begun (pre ++ [o])) o') ∧
      ∀ now, IsStill s now → ∀ x ∈ s.calls, x.id ∉ begun (pre ++ [o]) → x.phase = .queued ∧
        ∃ d ∈ begun (pre ++ [o]), ∃ current rest, s.startupLock.holder = some d ∧
          ⟨d, .preparing current rest⟩ ∈ s.calls := by
  have hd := destroyed_of_run hrun heq hbegan hret
  refine ⟨hd.registry, hd.quiet, fun o' ho' => ?_, fun now hstill x hx hold => ?_⟩
  · obtain ⟨mid, rest, rfl⟩ := List.append_of_mem ho'
    have heq' : h = (pre ++ o :: mid) ++ o' :: rest := by simpa using heq
    obtain ⟨hmid, hall, -⟩ := hrun.split heq'
    have hd' := destroyed_of_run hmid rfl hbegan hret
    have hsplit : h = pre ++ o :: mid ++ [o'] ++ rest := by simpa using heq'
    rw [hsplit] at hrun ⊢
    exact hd'.inert hmid hall hrun
  · exact waits_of_still hd (orderly_of_run hrun) hstill hx hold

/-- Does the event begin to destroy the set? -/
def destroys (c : CallId) (o : SetOccurrence Unit Unit) : Bool :=
  match o.event with
  | .begin d .destroy _ => d == c
  | _ => false

/-- Does the turn of the call end it with success? -/
def succeeds (c : CallId) (o : SetOccurrence Unit Unit) : Bool :=
  match o.event, (o.before.perform o.event).2 with
  | .poll d _, .call (.returned (.ok ())) => d == c
  | _, _ => false

/-- A set is destroyed while a task is running and another is being registered. The registration
that was in flight fails, and so does one that comes later. -/
theorem destroy_is_final_midway : ∃ (h : List (SetOccurrence Unit Unit)) (s : TaskSet Unit Unit)
    (pre post : List (SetOccurrence Unit Unit)) (o : SetOccurrence Unit Unit),
    (setSystem Unit Unit).Run h s ∧ h = pre ++ o :: post ∧ Began (pre ++ [o]) 3 .destroy ∧
      Returns o 3 (.ok ()) ∧ post.length = 2 ∧
      s.registry = [] ∧ s.isQuiet = true ∧ (∀ o' ∈ post, IsInert h (begun (pre ++ [o])) o') ∧
      ∀ now, IsStill s now → ∀ x ∈ s.calls, x.id ∉ begun (pre ++ [o]) → x.phase = .queued ∧
        ∃ d ∈ begun (pre ++ [o]), ∃ current rest, s.startupLock.holder = some d ∧
          ⟨d, .preparing current rest⟩ ∈ s.calls := by
  obtain ⟨h, s, hrun, hcheck⟩ := System.exists_run_of_replay (S := setSystem Unit Unit)
    (starts_new "s" none)
    [.begin 0 (.register ⟨0, "a"⟩ [] {} none ()) false, .begin 1 .init false,
      .initialized 1 (.ok ()) false, .pollLoop 0 0, .pollLoop 0 1,
      .begin 2 (.register ⟨1, "b"⟩ [] {} none ()) false, .begin 3 .destroy false,
      .ran 0 2 (.value ()), .poll 3 false, .initialized 2 (.ok ()) false,
      .begin 4 (.register ⟨2, "c"⟩ [] {} none ()) false]
    (fun h _ => (h.take 8).any (destroys 3) && ((h[8]?).any (succeeds 3) && h.length == 11))
    (by decide +kernel)
  obtain ⟨hbegins, hcheck⟩ := Bool.and_eq_true_iff.1 hcheck
  obtain ⟨hreturns, hlen⟩ := Bool.and_eq_true_iff.1 hcheck
  obtain ⟨o, ho, hsucceeds⟩ := (Option.any_eq_true _ _).1 hreturns
  have hlen : h.length = 11 := by simpa using hlen
  have hsplit : h = h.take 8 ++ o :: h.drop 9 := by
    obtain ⟨hi, rfl⟩ := List.getElem?_eq_some_iff.1 ho
    simp
  have hbegan : Began (h.take 8) 3 .destroy := by
    obtain ⟨o', ho', hbegin⟩ := List.any_eq_true.1 hbegins
    unfold destroys at hbegin
    split at hbegin
    · rename_i d b hevent
      obtain rfl : d = 3 := by simpa using hbegin
      exact ⟨o', ho', .destroy, b, hevent, rfl⟩
    · contradiction
  have hret : Returns o 3 (.ok ()) := by
    unfold succeeds at hsucceeds
    split at hsucceeds
    · rename_i d b hevent hanswer
      obtain rfl : d = 3 := by simpa using hsucceeds
      exact ⟨by rw [hevent]; rfl, hanswer⟩
    · contradiction
  exact ⟨h, s, h.take 8, h.drop 9, o, hrun, hsplit, hbegan.append [o], hret, by simp [hlen],
    destroy_is_final hrun hsplit (hbegan.append [o]) hret⟩

end TaskSet

end Overseer
