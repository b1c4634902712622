import Overseer.Proofs.Supervision.Terminated

/-!
# When nothing can go on

A set is still if neither a call nor a loop changes anything when it gets its turn (`IsStill`). It
is then up to the owner's code, or to the clock, to go on. Which calls have something to do is
decided by the locks (`canGoOn`), and which loops by their phase and the time (`Loop.isDue`). A set
is still exactly if nobody has (`isStill_iff`).
-/

namespace Overseer

variable {κ ξ : Type}

/-- Has the loop something to do at that time? -/
def Loop.isDue (x : Loop) (now : Nat) : Bool :=
  match x.phase with
  | .spawned => true
  | .waiting deadline => x.cancelled || decide (deadline ≤ now)
  | _ => false

namespace TaskSet

variable {s t : TaskSet κ ξ} {c : CallId} {p q : CallPhase κ ξ} {x : Call κ ξ} {now : Nat}

/-- Has the call something to do? -/
def canGoOn (s : TaskSet κ ξ) (x : Call κ ξ) : Bool :=
  match x.phase with
  | .initializing _ => false
  | .preparing _ _ => false
  | .queued => s.startupLock.isHeldBy x.id
  | .draining => s.isQuiet
  | _ => s.lifecycleLock.isHeldBy x.id

/-- No turn changes anything. -/
structure IsStill (s : TaskSet κ ξ) (now : Nat) : Prop where
  calls : ∀ c b, s.poll c b = (s, .wait)
  loops : ∀ l, (s.pollLoop l now).1 = s

/-! ## Calls -/

theorem poll_of_not_canGoOn (hx : s.call? c = some x) (h : s.canGoOn x = false) (b : Bool) :
    s.poll c b = (s, .wait) := by
  obtain rfl : x.id = c := by simpa using List.find?_some hx
  unfold canGoOn at h
  unfold poll
  simp only [hx]
  cases hp : x.phase with
  | initializing r => rfl
  | preparing current rest => rfl
  | _ =>
    simp only [hp] at h ⊢
    rw [if_neg (by simp [h])]

theorem consider_ne_wait (s : TaskSet κ ξ) (c : CallId) (r : Registration κ ξ) :
    (s.consider c r).2 ≠ .wait := by
  unfold consider
  split
  · simp [finish]
  · split <;> simp [finish]

theorem reconsider_ne_wait (s : TaskSet κ ξ) (c : CallId) (r : Registration κ ξ) :
    (s.reconsider c r).2 ≠ .wait := by
  unfold reconsider
  split <;> simp [finish]

theorem prepare_ne_wait (s : TaskSet κ ξ) (c : CallId) (next : Entry) (rest : List Entry) :
    (s.prepare c next rest).2 ≠ .wait := by
  unfold prepare
  split <;> simp [finish]

theorem conclude_ne_wait (s : TaskSet κ ξ) (c : CallId) (b : Bool) :
    (s.conclude c b).2 ≠ .wait := by
  unfold conclude
  split <;> simp [finish]

/-- Startup that waits for the lifecycle lock again has gone on to its next task. -/
theorem mem_goOn_of_wait {es : List Entry} (hc : ⟨c, p⟩ ∈ s.calls) {b : Bool}
    (hwait : (s.goOn c es b).2 = .wait) : ⟨c, .before es⟩ ∈ (s.goOn c es b).1.calls := by
  have hc' : ⟨c, p⟩ ∈ (s.lockLifecycle c).calls := hc
  unfold goOn at hwait ⊢
  cases es with
  | nil =>
    dsimp only at hwait ⊢
    split at hwait
    · exact absurd hwait (conclude_ne_wait _ c b)
    · rename_i hheld
      rw [if_neg hheld]
      exact mem_setPhase_self hc'
  | cons next rest =>
    dsimp only at hwait ⊢
    split at hwait
    · exact absurd hwait (prepare_ne_wait _ c next rest)
    · rename_i hheld
      rw [if_neg hheld]
      exact mem_setPhase_self hc'

theorem mem_openUp_of_wait (hc : ⟨c, p⟩ ∈ s.calls) {b : Bool}
    (hwait : (s.openUp c b).2 = .wait) : ∃ es, ⟨c, .before es⟩ ∈ (s.openUp c b).1.calls := by
  unfold openUp at hwait ⊢
  split at hwait
  · have hleft := goesOn_leaveLifecycle ({ s with lifecycle := .starting } : TaskSet κ ξ) c
    have hc' : ⟨c, p⟩ ∈
        (({ s with lifecycle := .starting } : TaskSet κ ξ).leaveLifecycle c).calls := by
      rw [hleft.calls]
      exact hc
    exact ⟨_, mem_goOn_of_wait hc' hwait⟩
  all_goals contradiction

theorem mem_demolish_of_wait (hc : ⟨c, p⟩ ∈ s.calls) (hwait : (s.demolish c).2 = .wait) :
    ⟨c, .draining⟩ ∈ (s.demolish c).1.calls := by
  have hc' : ⟨c, p⟩ ∈ s.cleared.calls := by
    obtain ⟨torn, hgo⟩ := goesOn_cleared s
    have hcalls : (if s.lifecycle == .started then s.cancelRoot else s).calls = s.calls := by
      split
      · exact (goesOn_cancelRoot s).calls
      · rfl
    rw [hgo.calls]
    exact hcalls ▸ hc
  rw [demolish_eq] at hwait ⊢
  split at hwait
  · contradiction
  · rename_i hq
    rw [if_neg hq]
    exact mem_setPhase_self hc'

/-- A call that has something to do does not just wait where it is. -/
theorem not_canGoOn_of_poll (ho : Orderly s) (hx : s.call? c = some x) {b : Bool}
    (hstay : s.poll c b = (s, .wait)) : s.canGoOn x = false := by
  obtain rfl : x.id = c := by simpa using List.find?_some hx
  have hc := mem_of_call? hx
  have hother : ∀ {q : CallPhase κ ξ}, ⟨x.id, q⟩ ∈ s.calls → x.phase = q := fun hq =>
    ho.phase_eq hc hq
  have hstate := congrArg Prod.fst hstay
  have hturn := congrArg Prod.snd hstay
  refine Bool.eq_false_iff.2 fun hgo => ?_
  -- from here on the call returns, or it is in a phase that it was not in before
  unfold canGoOn at hgo
  unfold poll at hstate hturn
  simp only [hx] at hstate hturn
  cases hp : x.phase with
  | initializing r => simp [hp] at hgo
  | preparing current rest => simp [hp] at hgo
  | queued =>
    simp only [hp] at hgo hstate hturn
    rw [if_pos hgo] at hstate hturn
    have hopening : ⟨x.id, .opening⟩ ∈ ((s.setPhase x.id .opening).lockLifecycle x.id).calls :=
      mem_setPhase_self hc
    split at hturn
    · rename_i hheld
      rw [if_pos hheld] at hstate
      obtain ⟨es, hes⟩ := mem_openUp_of_wait hopening hturn
      rw [hstate] at hes
      have hsame := hp.symm.trans (hother hes)
      cases es <;> simp [CallPhase.before] at hsame
    · rename_i hheld
      rw [if_neg hheld] at hstate
      have hmem : ⟨x.id, .opening⟩ ∈ s.calls := hstate ▸ hopening
      have hsame := hp.symm.trans (hother hmem)
      contradiction
  | opening =>
    simp only [hp] at hgo hstate hturn
    rw [if_pos hgo] at hstate hturn
    obtain ⟨es, hes⟩ := mem_openUp_of_wait hc hturn
    rw [hstate] at hes
    have hsame := hp.symm.trans (hother hes)
    cases es <;> simp [CallPhase.before] at hsame
  | demolishing =>
    simp only [hp] at hgo hstate hturn
    rw [if_pos hgo] at hstate hturn
    have hdraining := mem_demolish_of_wait hc hturn
    rw [hstate] at hdraining
    have hsame := hp.symm.trans (hother hdraining)
    contradiction
  | admitting r =>
    simp only [hp] at hgo hturn
    rw [if_pos hgo] at hturn
    exact consider_ne_wait s x.id r hturn
  | readmitting r =>
    simp only [hp] at hgo hturn
    rw [if_pos hgo] at hturn
    exact reconsider_ne_wait s x.id r hturn
  | checking next rest =>
    simp only [hp] at hgo hturn
    rw [if_pos hgo] at hturn
    exact prepare_ne_wait s x.id next rest hturn
  | concluding =>
    simp only [hp] at hgo hturn
    rw [if_pos hgo] at hturn
    exact conclude_ne_wait s x.id b hturn
  | aborting current source =>
    simp only [hp] at hgo hturn
    rw [if_pos hgo] at hturn
    contradiction
  | draining =>
    simp only [hp] at hgo hturn
    rw [if_pos hgo] at hturn
    contradiction

/-- A call in progress is found by its number. -/
theorem Orderly.call?_of_mem (ho : Orderly s) (hc : ⟨c, p⟩ ∈ s.calls) :
    s.call? c = some ⟨c, p⟩ := by
  cases hx : s.call? c with
  | none => simpa using List.find?_eq_none.1 hx _ hc
  | some x =>
    obtain rfl : x.id = c := by simpa using List.find?_some hx
    rw [ho.phase_eq hc (mem_of_call? hx)]

/-! ## Loops -/

theorem mem_setLoop_self {l : LoopId} {f : Loop → Loop} {y : Loop}
    (hy : y ∈ (s.setLoop l f).loops) (hid : y.id = l) : ∃ x ∈ s.loops, y = f x := by
  obtain ⟨x, hx, rfl⟩ := List.mem_map.1 hy
  refine ⟨x, hx, ?_⟩
  split
  · rfl
  · rename_i hne
    simp [hne] at hid
    simp [hid] at hne

theorem loops_wakeDraining (s : TaskSet κ ξ) : s.wakeDraining.loops = s.loops := by
  have hfold : ∀ (xs : List (Call κ ξ)) (t : TaskSet κ ξ),
      (xs.foldl (fun s x => s.notify (.wakeCall x.id)) t).loops = t.loops := by
    intro xs
    induction xs with
    | nil => exact fun t => rfl
    | cons x xs ih => exact fun t => ih _
  unfold wakeDraining
  split
  · exact hfold _ s
  · rfl

theorem mem_of_mem_forgetLoop {l : LoopId} {y : Loop} (hy : y ∈ (s.forgetLoop l).loops) :
    y ∈ s.loops := by
  unfold forgetLoop at hy
  split at hy
  · exact hy
  · split at hy
    · exact mem_of_mem_swapRemove hy
    · exact hy

/-- A loop that comes to its end is over, if it is not forgotten at once. -/
theorem ended_endLoop {l : LoopId} {y : Loop} (hy : y ∈ (s.endLoop l).loops) (hid : y.id = l) :
    y.phase = .ended := by
  unfold endLoop at hy
  rw [loops_forgetRoot] at hy
  have hwoken := mem_of_mem_forgetLoop hy
  rw [loops_wakeDraining] at hwoken
  obtain ⟨x, -, rfl⟩ := mem_setLoop_self hwoken hid
  rfl

theorem pollLoop_of_not_isDue {l : LoopId} {x : Loop} (hx : s.loop? l = some x)
    (h : x.isDue now = false) : (s.pollLoop l now).1 = s := by
  unfold Loop.isDue at h
  unfold pollLoop
  simp only [hx]
  cases hp : x.phase with
  | spawned => simp [hp] at h
  | waiting deadline =>
    simp only [hp, Bool.or_eq_false_iff, decide_eq_false_iff_not] at h ⊢
    rw [if_neg (by simp [h.1]), if_neg h.2]
  | _ => rfl

/-- A loop that waits does so in the set that it leaves. -/
theorem rest_ne {l : LoopId} {x : Loop} (hx : x ∈ t.loops) (hid : x.id = l)
    (hp : x.phase = .spawned) (hs : s.loops = t.loops) : (t.rest l now).1 ≠ s := by
  intro hsame
  have hmem : x ∈ (t.rest l now).1.loops := by rw [hsame, hs]; exact hx
  unfold rest at hmem
  split at hmem
  · rename_i hnone
    simpa [hid] using List.find?_eq_none.1 hnone x hx
  · rename_i y hy
    split at hmem
    · rw [ended_endLoop hmem hid] at hp
      contradiction
    · obtain ⟨z, -, rfl⟩ := mem_setLoop_self hmem hid
      contradiction

theorem not_isDue_of_pollLoop {l : LoopId} {x : Loop} (hx : s.loop? l = some x)
    (hstay : (s.pollLoop l now).1 = s) : x.isDue now = false := by
  obtain ⟨hmem, hid⟩ := loop?_eq_some hx
  refine Bool.eq_false_iff.2 fun hdue => ?_
  unfold Loop.isDue at hdue
  unfold pollLoop at hstay
  simp only [hx] at hstay
  cases hp : x.phase with
  | spawned =>
    simp only [hp] at hstay
    have hloops : s.loops = (s.loopRecord .debug "Task loop started."
        [("period_ms", .number x.period.millis)]).loops := rfl
    exact rest_ne (hloops ▸ hmem) hid hp hloops hstay
  | waiting deadline =>
    simp only [hp] at hdue hstay
    split at hstay
    · rw [← hstay] at hmem
      rw [ended_endLoop hmem hid] at hp
      contradiction
    · rename_i hc
      have hpassed : deadline ≤ now := by simpa [hc] using hdue
      rw [if_pos hpassed] at hstay
      rw [← hstay] at hmem
      obtain ⟨y, -, rfl⟩ := mem_setLoop_self hmem hid
      contradiction
  | _ => simp [hp] at hdue

/-! ## Stillness -/

/-- A set is still exactly if neither a call nor a loop has anything to do. -/
theorem isStill_iff (ho : Orderly s) (hloops : (s.loops.map (·.id)).Nodup) : IsStill s now ↔
    (∀ x ∈ s.calls, s.canGoOn x = false) ∧ ∀ x ∈ s.loops, x.isDue now = false := by
  constructor
  · intro hstill
    refine ⟨fun x hx => ?_, fun x hx => ?_⟩
    · exact not_canGoOn_of_poll ho (ho.call?_of_mem hx) (hstill.calls x.id false)
    · have hfound : ∃ y, s.loop? x.id = some y := by
        cases hy : s.loop? x.id with
        | none => simpa using List.find?_eq_none.1 hy x hx
        | some y => exact ⟨y, rfl⟩
      obtain ⟨y, hy⟩ := hfound
      obtain ⟨hmem, hid⟩ := loop?_eq_some hy
      obtain rfl := List.inj_on_of_nodup_map hloops hmem hx hid
      exact not_isDue_of_pollLoop hy (hstill.loops y.id)
  · rintro ⟨hcalls, hdue⟩
    refine ⟨fun c b => ?_, fun l => ?_⟩
    · cases hx : s.call? c with
      | none => simp [poll, hx]
      | some x => exact poll_of_not_canGoOn hx (hcalls x (List.mem_of_find?_eq_some hx)) b
    · cases hx : s.loop? l with
      | none => simp [pollLoop, hx]
      | some x => exact pollLoop_of_not_isDue hx (hdue x (loop?_eq_some hx).1)

/-- If somebody wants the lifecycle lock of a still set, a destroy call has it and waits for
loops. -/
theorem IsStill.draining (hstill : IsStill s now) (ho : Orderly s)
    (hwants : s.Wants CallPhase.wantsLifecycle c) : ∃ d, s.lifecycleLock.holder = some d ∧
      ⟨d, .draining⟩ ∈ s.calls ∧ s.isQuiet = false := by
  obtain ⟨d, hheld, p, hp, hw⟩ := ho.lifecycle.held hwants
  have hstuck := not_canGoOn_of_poll ho (ho.call?_of_mem hp) (hstill.calls d false)
  cases p with
  | draining => exact ⟨d, hheld, hp, hstuck⟩
  | initializing r => simp [CallPhase.wantsLifecycle] at hw
  | preparing current rest => simp [CallPhase.wantsLifecycle] at hw
  | queued => simp [CallPhase.wantsLifecycle] at hw
  | _ => simp [canGoOn, Lock.isHeldBy, hheld] at hstuck

end TaskSet

end Overseer
