import Overseer.Proofs.Supervision.Ownership
import Overseer.Proofs.Supervision.Polling

/-!
# Tasks that fail

A loop that fails looks for its registration by the task. In a history in which no task is
registered again after it left (`NoReturn`), what it finds can only be its own registration, as
every loop polls for a stay that goes on or is over (`housed_of_run`). So a loop either fails while
its task is registered, and then its registration goes, the task is torn down and the error is on
its way to the callback (`NoReturn.fails`), or it fails too late and does nothing
(`harmless_of_absent`). No task is run that is not registered (`NoReturn.registered_of_turn`), and
no error of such a task is reported (`ending_of_report`).
-/

namespace Overseer

variable {κ ξ : Type}

namespace TaskSet

variable {s : TaskSet κ ξ} {us : List CallId} {h : List (SetOccurrence κ ξ)}
  {o : SetOccurrence κ ξ} {x : Loop} {r : Registration κ ξ}

/-! ## Stays and their loops -/

/-- A loop whose ticket is registered polls for what is registered. -/
theorem stay_of_ticket (hrun : (setSystem κ ξ).Run h s) (hx : x ∈ s.loops)
    (hk : x.ticket ∈ s.tickets) : x.stay ∈ s.stays := by
  refine (housed_of_run hrun x hx).resolve_right fun hover => ?_
  obtain ⟨o, ho, hend⟩ := List.mem_flatMap.1 hover.1
  exact not_mem_of_hasLeft hrun (hasLeft_of_ending ho hend) hk

/-- Who looks for the task of a loop whose stay goes on finds that stay. -/
theorem lookup?_of_stay (hs : Sound us s) (hx : x.stay ∈ s.stays) :
    ∃ r, s.registry.lookup? x.task.id = some r ∧ r.stay = x.stay := by
  obtain ⟨r, hr, hstay⟩ := List.mem_map.1 hx
  have htask : r.task = x.task := congrArg Prod.snd hstay
  exact ⟨r, htask ▸ Registry.lookup?_eq_some hs.tasks hr, hstay⟩

theorem exists_loop? {l : LoopId} (h : ∃ x ∈ s.loops, x.id = l ∧ x.phase = .running) :
    ∃ x, s.loop? l = some x := by
  obtain ⟨x, hx, hid, -⟩ := h
  exact Option.isSome_iff_exists.1 (List.find?_isSome.2 ⟨x, hx, by simpa using hid⟩)

/-! ## Histories in which nobody returns -/

/-- No task is registered again after it left. -/
def NoReturn (h : List (SetOccurrence κ ξ)) : Prop :=
  h.Pairwise fun o o' => ∀ x ∈ endings o.before ((setSystem κ ξ).after o),
    o'.before.registry.has x.2.id = false

instance (h : List (SetOccurrence κ ξ)) : Decidable (NoReturn h) :=
  inferInstanceAs (Decidable (List.Pairwise _ h))

theorem NoReturn.absent {pre post : List (SetOccurrence κ ξ)} (hn : NoReturn (pre ++ o :: post))
    {x : Stay} (hx : x ∈ departures pre) : o.before.registry.has x.2.id = false := by
  obtain ⟨o', ho', hend⟩ := List.mem_flatMap.1 hx
  exact (List.pairwise_append.1 hn).2.2 o' ho' o List.mem_cons_self x hend

/-- What is registered of the task of a loop is the stay for which the loop polls. -/
theorem NoReturn.stay_eq (hn : NoReturn h) (hrun : (setSystem κ ξ).Run h s) (ho : o ∈ h)
    (hx : x ∈ o.before.loops) (hr : o.before.registry.lookup? x.task.id = some r) :
    r.stay = x.stay := by
  obtain ⟨pre, post, rfl⟩ := List.append_of_mem ho
  have hpre := (hrun.split rfl).1
  rcases housed_of_run hpre x hx with hgoes | ⟨hover, -⟩
  · obtain ⟨r', hr', hstay⟩ := lookup?_of_stay (sound_of_run hpre) hgoes
    obtain rfl := Option.some.inj (hr.symm.trans hr')
    exact hstay
  · exact absurd (Registry.id_of_lookup? hr)
      (Registry.has_eq_false.1 (hn.absent hover) r (Registry.mem_of_lookup? hr))

theorem NoReturn.displaced? (hn : NoReturn h) (hrun : (setSystem κ ξ).Run h s) (ho : o ∈ h) :
    o.before.displaced? o.event = none := by
  refine Option.eq_none_iff_forall_ne_some.2 fun k hk => ?_
  obtain ⟨s₀, e⟩ := o
  cases e with
  | ran l now ending =>
    unfold TaskSet.displaced? at hk
    dsimp only at hk
    split at hk
    · contradiction
    · obtain ⟨x, hx, hk⟩ := Option.bind_eq_some_iff.1 hk
      obtain ⟨r, hr, hk⟩ := Option.bind_eq_some_iff.1 hk
      have hticket : r.ticket = x.ticket :=
        congrArg Prod.fst (hn.stay_eq hrun ho (loop?_eq_some hx).1 hr)
      simp [hticket] at hk
  | _ => contradiction

/-- A loop that polls with nothing to stop it polls for what is registered. -/
theorem NoReturn.stay_of_live (hn : NoReturn h) (hrun : (setSystem κ ξ).Run h s) (ho : o ∈ h)
    (hx : x ∈ o.before.loops) (hlive : x.isLive = true) : x.stay ∈ o.before.stays := by
  obtain ⟨pre, post, rfl⟩ := List.append_of_mem ho
  have hpre := (hrun.split rfl).1
  refine (housed_of_run hpre x hx).resolve_right fun hover => ?_
  obtain ⟨o', ho', hd⟩ := List.mem_filterMap.1 (hover.2 hlive)
  simp [hn.displaced? hrun (List.mem_append_left _ ho')] at hd

/-! ## Runs -/

/-- A loop that rests waits, or has come to its end. -/
theorem rest_turn (s : TaskSet κ ξ) (l : LoopId) (now : Nat) :
    (s.rest l now).2 = .ended ∨ ∃ deadline, (s.rest l now).2 = .wait deadline := by
  unfold rest
  split
  · exact Or.inl rfl
  · split
    · exact Or.inl rfl
    · exact Or.inr ⟨_, rfl⟩

theorem rest_ne_run (s : TaskSet κ ξ) (l : LoopId) (now : Nat) (task : TaskRef) :
    (s.rest l now).2 ≠ .run task := by
  rcases rest_turn s l now with hturn | ⟨deadline, hturn⟩ <;> simp [hturn]

theorem fail_ne_run (s : TaskSet κ ξ) (l : LoopId) (x task : TaskRef) (error : Fault) :
    (s.fail l x error).2 ≠ .run task := by
  unfold fail
  split
  · simp
  · dsimp only
    split <;> simp

/-- The task of a loop is run when the loop has its turn, and nothing has stopped it. -/
theorem live_of_turn {e : SetEvent κ ξ} {task : TaskRef}
    (h : (s.perform e).2 = .loop (.run task)) : ∃ x ∈ s.loops, x.isLive = true ∧ x.task = task := by
  cases e with
  | pollLoop l now =>
    have hturn : (s.pollLoop l now).2 = .run task := SetAnswer.loop.inj h
    unfold pollLoop at hturn
    split at hturn
    · contradiction
    · rename_i x hx
      split at hturn
      · exact absurd hturn (rest_ne_run _ l now task)
      · rename_i deadline hphase
        split at hturn
        · contradiction
        · rename_i hc
          split at hturn
          · exact ⟨x, (loop?_eq_some hx).1, by simp [Loop.isLive, Loop.isPolling, hphase, hc],
              LoopTurn.run.inj hturn⟩
          · contradiction
      all_goals contradiction
  | ran l now ending =>
    have hturn : (s.ran l now ending).2 = .run task := SetAnswer.loop.inj h
    rcases ran_cases s l now ending with ⟨-, heq⟩ | ⟨x, -, ⟨-, heq⟩ | ⟨error, -, heq⟩⟩
    · simp [heq] at hturn
    · exact absurd (heq ▸ hturn) (rest_ne_run s l now task)
    · rw [heq] at hturn
      split at hturn
      · contradiction
      · exact absurd hturn (fail_ne_run _ l x.task task error)
  | _ => contradiction

/-- Only a task that is registered is run. -/
theorem NoReturn.registered_of_turn (hn : NoReturn h) (hrun : (setSystem κ ξ).Run h s)
    (ho : o ∈ h) {task : TaskRef} (hturn : ((setSystem κ ξ).shows o).2 = .loop (.run task)) :
    o.before.registry.has task.id = true := by
  obtain ⟨x, hx, hlive, rfl⟩ := live_of_turn hturn
  obtain ⟨pre, hpre, -, -⟩ := hrun.of_mem ho
  obtain ⟨r, hr, -⟩ := lookup?_of_stay (sound_of_run hpre) (hn.stay_of_live hrun ho hx hlive)
  exact Registry.has_of_lookup? hr

/-! ## Failures -/

/-- What a loop that has failed hands over, and to whom, if its task is registered so. -/
def handing (s : TaskSet κ ξ) (r : Registration κ ξ) (task : TaskRef) (error : Fault) :
    LoopTurn κ :=
  match r.options.onError with
  | none => .ended
  | some callback => .report callback task error (r.options.pool.or s.pool)

theorem pool_forgetLoop (s : TaskSet κ ξ) (l : LoopId) : (s.forgetLoop l).pool = s.pool := by
  unfold forgetLoop
  split
  · rfl
  · split <;> rfl

/-- A loop that fails takes out what is registered of its task. -/
theorem fail_of_registered (hr : s.registry.lookup? x.task.id = some r) (error : Fault) :
    (s.fail x.id x.task error).1.registry = s.registry.remove x.task.id ∧
      (s.fail x.id x.task error).2 = s.handing r x.task error := by
  refine ⟨(goesOn_fail hr error).1.registry, ?_⟩
  have hpool : ∀ t : TaskSet κ ξ, (r.loop.elim t t.forgetLoop).pool = t.pool := by
    intro t
    cases r.loop with
    | none => rfl
    | some l => exact pool_forgetLoop t l
  unfold fail handing
  simp only [hr]
  cases r.options.onError with
  | none => rfl
  | some callback =>
    dsimp only
    rw [Option.orElse_eq_or, hpool]
    rfl

variable {l : LoopId} {now : Nat} {ending : Ending Unit} {error : Fault}

theorem ran_of_registered (hfail : ending.error? = some error) (hx : s.loop? l = some x)
    (hd : s.dropped = false) (hr : s.registry.lookup? x.task.id = some r) (now : Nat) :
    (s.ran l now ending).1.registry = s.registry.remove x.task.id ∧
      (s.ran l now ending).2 = s.handing r x.task error := by
  obtain ⟨-, rfl⟩ := loop?_eq_some hx
  rw [ran_of_error? hx hfail, if_neg (by simp [hd])]
  exact fail_of_registered (s := s.warned error) hr error

/-- The failure of a registered task: its own registration goes, the task is torn down, and the
error is on its way to the callback of the registration, if there is one. -/
structure Fails (o : SetOccurrence κ ξ) (x : Loop) (r : Registration κ ξ) (error : Fault) :
    Prop where
  stay : r.stay = x.stay
  loop : r.loop = some x.id
  registry : ((setSystem κ ξ).after o).registry = o.before.registry.remove x.task.id
  tearsDown : tearsDown o = [x.task]
  answer : ((setSystem κ ξ).shows o).2 = .loop (o.before.handing r x.task error)

theorem endings_of_failure (hrun : (setSystem κ ξ).Run h s) (ho : o ∈ h)
    (he : o.event = .ran l now ending) (hfail : ending.error? = some error)
    (hx : o.before.loop? l = some x) (hr : o.before.registry.lookup? x.task.id = some r) :
    endings o.before ((setSystem κ ξ).after o) = [r.stay] ∧
      ((setSystem κ ξ).after o).registry = o.before.registry.remove x.task.id ∧
      ((setSystem κ ξ).shows o).2 = .loop (o.before.handing r x.task error) := by
  obtain ⟨pre, hpre, -, -⟩ := hrun.of_mem ho
  obtain ⟨s₀, e⟩ := o
  obtain rfl : e = .ran l now ending := he
  have hopen : s₀.dropped = false := by
    refine Bool.eq_false_iff.2 fun hd => ?_
    rw [(emptied_of_run hpre hd).1] at hr
    contradiction
  obtain ⟨hreg, hturn⟩ := ran_of_registered hfail hx hopen hr now
  exact ⟨endings_of_remove (sound_of_run hpre) hr hreg, hreg, congrArg SetAnswer.loop hturn⟩

/-- A loop that fails while its task is registered takes out its own registration. -/
theorem NoReturn.fails (hn : NoReturn h) (hrun : (setSystem κ ξ).Run h s) (ho : o ∈ h)
    (he : o.event = .ran l now ending) (hfail : ending.error? = some error)
    (hx : o.before.loop? l = some x) (hr : o.before.registry.lookup? x.task.id = some r) :
    Fails o x r error := by
  have hloop := (loop?_eq_some hx).1
  have hstay := hn.stay_eq hrun ho hloop hr
  obtain ⟨hend, hreg, hanswer⟩ := endings_of_failure hrun ho he hfail hx hr
  obtain ⟨pre, hpre, -, -⟩ := hrun.of_mem ho
  refine ⟨hstay, ?_, hreg, ?_, hanswer⟩
  · exact (sound_of_run hpre).owner r (Registry.mem_of_lookup? hr) x hloop
      (congrArg Prod.fst hstay).symm
  · rw [tearsDown_eq hrun ho, hend, hstay, he]
    rfl

/-- A loop that fails when its task is no longer registered does nothing. -/
theorem harmless_of_absent (hrun : (setSystem κ ξ).Run h s) (ho : o ∈ h)
    (he : o.event = .ran l now ending) (hfail : ending.error? = some error)
    (hx : o.before.loop? l = some x) (habsent : o.before.registry.lookup? x.task.id = none) :
    IsHarmless o := by
  obtain ⟨pre, hpre, -, -⟩ := hrun.of_mem ho
  have hfailure : ending.isFailure = true := by simp [Ending.isFailure_eq, hfail]
  have hleft : x.ticket ∉ o.before.tickets := by
    intro hk
    obtain ⟨r, hr, -⟩ := lookup?_of_stay (sound_of_run hpre)
      (stay_of_ticket hpre (loop?_eq_some hx).1 hk)
    exact nomatch hr.symm.trans habsent
  have hstale : isStaleFailure o = true := by
    simp [isStaleFailure, he, hfailure, hx, hleft]
  rw [isHarmless_iff hrun ho hstale, he, displaced?_eq_none hfailure hx hleft]
  exact Or.inr habsent

/-- A task that has failed is not registered from then on. -/
theorem NoReturn.absent_after {pre post : List (SetOccurrence κ ξ)}
    (hn : NoReturn (pre ++ o :: post)) (hrun : (setSystem κ ξ).Run (pre ++ o :: post) s)
    (he : o.event = .ran l now ending) (hfail : ending.error? = some error)
    (hx : o.before.loop? l = some x) : ∀ o' ∈ post, o'.before.registry.has x.task.id = false := by
  have ho : o ∈ pre ++ o :: post := List.mem_append_right _ List.mem_cons_self
  have hpre := (hrun.split rfl).1
  have hover : x.stay ∈ departures pre ∨ x.stay ∈ endings o.before ((setSystem κ ξ).after o) := by
    rcases housed_of_run hpre x (loop?_eq_some hx).1 with hgoes | ⟨hover, -⟩
    · obtain ⟨r, hr, hstay⟩ := lookup?_of_stay (sound_of_run hpre) hgoes
      rw [(endings_of_failure hrun ho he hfail hx hr).1, hstay]
      exact Or.inr (List.mem_singleton_self _)
    · exact Or.inl hover
  intro o' ho'
  obtain ⟨mid, rest, rfl⟩ := List.append_of_mem ho'
  have hn' : NoReturn ((pre ++ o :: mid) ++ o' :: rest) := by simpa using hn
  refine hn'.absent (x := x.stay) ?_
  simp only [departures, List.flatMap_append, List.flatMap_cons, List.mem_append]
  exact hover.imp_right Or.inl

/-! ## Reports -/

variable {callback : κ} {task : TaskRef} {pool : Option PoolId}

theorem rest_ne_report (s : TaskSet κ ξ) (l : LoopId) (now : Nat) :
    (s.rest l now).2 ≠ .report callback task error pool := by
  rcases rest_turn s l now with hturn | ⟨deadline, hturn⟩ <;> simp [hturn]

/-- Only the error of a task that is registered is handed over. -/
theorem registered_of_fail {task' : TaskRef} {error' : Fault}
    (h : (s.fail l task' error').2 = .report callback task error pool) :
    task' = task ∧ error' = error ∧ ∃ r, s.registry.lookup? task.id = some r := by
  unfold fail at h
  split at h
  · contradiction
  · rename_i r hr
    dsimp only at h
    split at h
    · contradiction
    · obtain ⟨-, rfl, rfl, -⟩ := LoopTurn.report.inj h
      exact ⟨rfl, rfl, r, hr⟩

theorem registered_of_ran (h : (s.ran l now ending).2 = .report callback task error pool) :
    ∃ x r, s.loop? l = some x ∧ x.task = task ∧ ending.error? = some error ∧
      s.registry.lookup? x.task.id = some r := by
  rcases ran_cases s l now ending with ⟨-, heq⟩ | ⟨x, hx, ⟨-, heq⟩ | ⟨error', hfail, heq⟩⟩
  · simp [heq] at h
  · exact absurd (heq ▸ h) (rest_ne_report s l now)
  · rw [heq] at h
    split at h
    · contradiction
    · obtain ⟨rfl, rfl, r, hr⟩ := registered_of_fail (s := s.warned error') h
      exact ⟨x, r, hx, rfl, hfail, hr⟩

/-- A task whose error is handed over was registered, and leaves. -/
theorem ending_of_report (hrun : (setSystem κ ξ).Run h s) (ho : o ∈ h)
    (he : o.event = .ran l now ending)
    (hturn : (o.before.ran l now ending).2 = .report callback task error pool) :
    o.before.registry.has task.id = true ∧
      ∃ x ∈ endings o.before ((setSystem κ ξ).after o), x.2.id = task.id := by
  obtain ⟨x, r, hx, rfl, hfail, hr⟩ := registered_of_ran hturn
  refine ⟨Registry.has_of_lookup? hr, r.stay, ?_, Registry.id_of_lookup? hr⟩
  rw [(endings_of_failure hrun ho he hfail hx hr).1]
  exact List.mem_singleton_self _

end TaskSet

end Overseer
