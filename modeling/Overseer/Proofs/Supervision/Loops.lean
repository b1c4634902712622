import Overseer.Proofs.Supervision.Sound

/-!
# Turns of loops, and what leaves

A loop that gets its turn goes on with nothing but itself, until a run of its task fails. Then it
takes out what is registered of that task (`goesOn_fail`). That is its own registration, or the
one that `displaced?` names. `course_unregister` and `course_drop` are the two other ways of
leaving that are not turns of calls.
-/

namespace Overseer

variable {κ ξ : Type}

/-- Has a run failed? -/
def Ending.isFailure {α : Type} : Ending α → Bool
  | .value _ => false
  | .fault _ => true
  | .panic _ => true

/-- The error with which a run has ended. -/
def Ending.error? {α : Type} : Ending α → Option Fault
  | .value _ => none
  | .fault error => some error
  | .panic payload => some payload.toFault

theorem Ending.isFailure_eq {α : Type} (ending : Ending α) :
    ending.isFailure = ending.error?.isSome := by
  cases ending <;> rfl

namespace TaskSet

/-- The registration that leaves because the loop of another stay has failed. -/
def displaced? (s : TaskSet κ ξ) : SetEvent κ ξ → Option CallId
  | .ran l _ ending =>
    if s.dropped || !ending.isFailure then none
    else do
      let x ← s.loop? l
      let r ← s.registry.lookup? x.task.id
      if r.ticket = x.ticket then none else some r.ticket
  | _ => none

variable {s t : TaskSet κ ξ} {us : List CallId}

/-! ## Turns of loops -/

/-- A loop that polls, and that nothing has stopped since, may go on polling. -/
theorem goesOn_setPolling (hs : Sound us s) {x : Loop} (hx : x ∈ s.loops)
    (hpoll : x.isPolling = true) (phase : LoopPhase) :
    GoesOn [] s (s.setLoop x.id fun y => { y with phase := phase }) := by
  refine goesOn_setLoop fun y hy hid => ⟨rfl, rfl, rfl, fun hlive => ?_⟩
  obtain rfl := List.inj_on_of_nodup_map hs.loopIds hy hx hid
  simp only [Loop.isLive, Bool.and_eq_true] at hlive ⊢
  exact ⟨hpoll, hlive.2⟩

theorem loop?_eq_some {l : LoopId} {x : Loop} (h : s.loop? l = some x) :
    x ∈ s.loops ∧ x.id = l :=
  ⟨List.mem_of_find?_eq_some h, by simpa using List.find?_some h⟩

theorem goesOn_rest (hs : Sound us s) {l : LoopId}
    (hpoll : ∀ x ∈ s.loops, x.id = l → x.isPolling = true) (now : Nat) :
    GoesOn [] s (s.rest l now).1 := by
  unfold rest
  split
  · exact .refl s
  · rename_i x hfound
    obtain ⟨hx, rfl⟩ := loop?_eq_some hfound
    split
    · exact goesOn_endLoop s x.id
    · exact goesOn_setPolling hs hx (hpoll x hx rfl) _

theorem goesOn_pollLoop (hs : Sound us s) (l : LoopId) (now : Nat) :
    GoesOn [] s (s.pollLoop l now).1 := by
  unfold pollLoop
  cases h : s.loop? l with
  | none => exact .refl s
  | some x =>
    obtain ⟨hx, rfl⟩ := loop?_eq_some h
    cases hp : x.phase with
    | spawned =>
      simp only [hp]
      have hrecord := goesOn_loopRecord s .debug "Task loop started."
        [("period_ms", .number x.period.millis)]
      refine hrecord.then (goesOn_rest (hs.goesOn hrecord) (fun y hy hid => ?_) now)
      obtain rfl := List.inj_on_of_nodup_map hs.loopIds hy hx hid
      simp [Loop.isPolling, hp]
    | waiting deadline =>
      simp only [hp]
      split
      · exact goesOn_endLoop s x.id
      · split
        · exact goesOn_setPolling hs hx (by simp [Loop.isPolling, hp]) _
        · exact .refl s
    | _ =>
      simp only [hp]
      exact .refl s

theorem goesOn_reported (s : TaskSet κ ξ) (l : LoopId) (poolName : String)
    (result : Except PoolError Unit) : GoesOn [] s (s.reported l poolName result) := by
  cases result with
  | ok _ => exact goesOn_endLoop s l
  | error e => exact (goesOn_record s _ _ _).then (goesOn_endLoop _ l)

theorem goesOn_killLoop (s : TaskSet κ ξ) (l : LoopId) : GoesOn [] s (s.killLoop l) := by
  unfold killLoop
  split
  · exact .refl s
  · split
    · exact .refl s
    · exact goesOn_endLoop s l

/-! ## What leaves -/

theorem goesOn_elim_forgetLoop (s : TaskSet κ ξ) (l : Option LoopId) :
    GoesOn [] s (l.elim s s.forgetLoop) := by
  cases l with
  | none => exact .refl s
  | some l => exact goesOn_forgetLoop s l

theorem course_unregister (s : TaskSet κ ξ) (task : TaskRef) :
    ∃ d, Course s d (s.unregister task).1 ∧ d.bind (·.initialized?) = none ∧
      d.bind (·.refused?) = none ∧ d.bind (·.displaced?) = none := by
  unfold unregister
  split
  · exact ⟨none, .stays s, rfl, rfl, rfl⟩
  · rename_i r hr
    have hmove := Move.removes .unregistered task.id hr (Or.inl rfl)
      (goesOn_retire { s with registry := s.registry.remove task.id } r .stopped)
      (halted_retire _ r .stopped)
    exact ⟨_, hmove.course, rfl, rfl, rfl⟩

/-- Every loop of a registration is stopped when the root token of a set has been cancelled. -/
theorem halted_cancelRoot_if (hs : Sound us s) (hd : s.dropped = false) :
    ∀ r ∈ s.registry, (if s.lifecycle == .started then s.cancelRoot else s).IsHalted r.loop := by
  intro r hr y hy _
  by_cases hl : s.lifecycle = .started
  · rw [if_pos (by simp [hl])] at hy
    exact (hs.goesOn (goesOn_cancelRoot s)).halted (rootCancelled_cancelRoot (hs.rooted hl hd)) y hy
  · rw [if_neg (by simp [hl])] at hy
    have hne : s.lifecycle ≠ .terminated := by
      intro hl'
      simp [hs.empty hl'] at hr
    simp [hs.loops_eq_nil hl hne] at hy

/-- The last handle goes, and no call is in progress. -/
theorem course_drop (hs : Sound us s) (hcalls : s.calls = []) (hd : s.dropped = false) :
    Course s (some (.leave .dropped s.stays)) s.drop := by
  have hroot := goesOn_cancelRoot_if s
  have hhalt := halted_cancelRoot_if hs hd
  unfold drop
  generalize (if s.lifecycle == .started then s.cancelRoot else s) = t at hroot hhalt ⊢
  have htear := goesOn_foldl (fun s (r : Registration κ ξ) => goesOn_tearDown s r .destroyed)
    t.registry { t with registry := [], dropped := true }
  have hforget := goesOn_foldl_silent
    (fun s (r : Registration κ ξ) => goesOn_elim_forgetLoop s r.loop) t.registry
    (t.registry.foldl (fun s r => s.tearDown r .destroyed)
      { t with registry := [], dropped := true })
  have hgo := (htear.then hforget).then (goesOn_forgetRoot _)
  rw [← List.map_eq_flatMap] at hgo
  have hstays : t.stays = s.stays := by rw [stays, stays, hroot.registry]
  rw [← hstays]
  refine hroot.course.after (Move.drops (hroot.calls.trans hcalls) hgo fun r hr => ?_).course
  exact hgo.halted (hhalt r (hroot.registry ▸ hr))

theorem halted_setLoop (s : TaskSet κ ξ) (l : LoopId) {phase : LoopPhase}
    (h : phase = .reporting ∨ phase = .ended) :
    (s.setLoop l fun y => { y with phase := phase }).IsHalted (some l) := by
  intro y hy hid
  obtain ⟨x, _, rfl⟩ := List.mem_map.1 hy
  split
  · rcases h with rfl | rfl <;> simp [Loop.isLive, Loop.isPolling]
  · rename_i hne
    simp [hne] at hid
    simp [← hid] at hne

theorem halted_endLoop (s : TaskSet κ ξ) (l : LoopId) : (s.endLoop l).IsHalted (some l) :=
  (((goesOn_wakeDraining _).then (goesOn_forgetLoop _ l)).then (goesOn_forgetRoot _)).halted
    (halted_setLoop s l (Or.inr rfl))

/-- A loop that fails takes out what is registered of its task, and stops. -/
theorem goesOn_fail {x : Loop} {r : Registration κ ξ}
    (h : s.registry.lookup? x.task.id = some r) (error : Fault) :
    GoesOn [r.task] { s with registry := s.registry.remove x.task.id }
        (s.fail x.id x.task error).1 ∧
      (s.fail x.id x.task error).1.IsHalted (some x.id) := by
  have hgo := (goesOn_tearDown { s with registry := s.registry.remove x.task.id } r .failed).then
    (goesOn_elim_forgetLoop _ r.loop)
  unfold fail
  simp only [h]
  split
  · exact ⟨hgo.then (goesOn_endLoop _ _), halted_endLoop _ _⟩
  · refine ⟨hgo.then (goesOn_setLoop fun y _ _ => ⟨rfl, rfl, rfl, fun hl => ?_⟩),
      halted_setLoop _ _ (Or.inl rfl)⟩
    simp [Loop.isLive, Loop.isPolling] at hl

theorem course_fail (hs : Sound us s) {x : Loop} (hx : x ∈ s.loops) (error : Fault) :
    ∃ d, Course s d (s.fail x.id x.task error).1 ∧ d.bind (·.initialized?) = none ∧
      d.bind (·.refused?) = none ∧
      d.bind (·.displaced?) = (s.registry.lookup? x.task.id).bind (fun r =>
        if r.ticket = x.ticket then none else some r.ticket) ∧
      d.bind (·.way?) ≠ some .unregistered := by
  cases h : s.registry.lookup? x.task.id with
  | none =>
    have hgo := (goesOn_record s .debug "Task failed after being removed."
      [("task", .text x.task.name), ("error", .text error.text)]).then (goesOn_endLoop _ x.id)
    refine ⟨none, ?_, rfl, rfl, rfl, by simp⟩
    unfold fail
    simp only [h]
    exact hgo.course
  | some r =>
    obtain ⟨hgo, hhalt⟩ := goesOn_fail h error
    have hne : s.loops ≠ [] := List.ne_nil_of_mem hx
    by_cases hown : r.ticket = x.ticket
    · have hloop := hs.owner r (Registry.mem_of_lookup? h) x hx hown.symm
      have hmove := Move.removes .failed x.task.id h (Or.inr hne) hgo (hloop ▸ hhalt)
      exact ⟨_, hmove.course, rfl, rfl, by simp [Deed.displaced?, hown], by simp [Deed.way?]⟩
    · have hmove := Move.displaces x.task.id h hne hgo
      exact ⟨_, hmove.course, rfl, rfl, by simp [Deed.displaced?, Registration.stay, hown],
        by simp [Deed.way?]⟩

/-! ## Ends of runs -/

/-- The set after a loop has said that its task failed. -/
def warned (s : TaskSet κ ξ) (error : Fault) : TaskSet κ ξ :=
  s.loopRecord .warn "Task failed. Removing it from its supervisor." [("error", .text error.text)]

theorem goesOn_warned (s : TaskSet κ ξ) (error : Fault) : GoesOn [] s (s.warned error) :=
  goesOn_loopRecord s .warn _ _

/-- Errors and panics are failures alike. A loop that has failed leaves a set alone that has been
dropped. -/
theorem ran_of_error? {l : LoopId} {x : Loop} {ending : Ending Unit} {error : Fault}
    (hx : s.loop? l = some x) (hfail : ending.error? = some error) (now : Nat) :
    s.ran l now ending = if s.dropped then ((s.warned error).endLoop l, .ended)
      else (s.warned error).fail l x.task error := by
  unfold ran
  rw [hx]
  cases ending with
  | value _ => contradiction
  | fault error' =>
    obtain rfl : error' = error := Option.some.inj hfail
    rfl
  | panic payload =>
    obtain rfl : payload.toFault = error := Option.some.inj hfail
    rfl

theorem ran_cases (s : TaskSet κ ξ) (l : LoopId) (now : Nat) (ending : Ending Unit) :
    (s.loop? l = none ∧ s.ran l now ending = (s, .ended)) ∨ ∃ x, s.loop? l = some x ∧
      ((ending.error? = none ∧ s.ran l now ending = s.rest l now) ∨
        ∃ error, ending.error? = some error ∧ s.ran l now ending =
          if s.dropped then ((s.warned error).endLoop l, .ended)
          else (s.warned error).fail l x.task error) := by
  cases hx : s.loop? l with
  | none => exact Or.inl ⟨rfl, by rw [ran, hx]⟩
  | some x =>
    refine Or.inr ⟨x, rfl, ?_⟩
    cases hfail : ending.error? with
    | some error => exact Or.inr ⟨error, rfl, ran_of_error? hx hfail now⟩
    | none =>
      cases ending with
      | value _ => exact Or.inl ⟨rfl, by rw [ran, hx]⟩
      | _ => contradiction

/-- A loop whose task has run goes on polling. -/
theorem goesOn_rest_of_running (hs : Sound us s) {l : LoopId}
    (hrun : ∃ x ∈ s.loops, x.id = l ∧ x.phase = .running) (now : Nat) :
    GoesOn [] s (s.rest l now).1 := by
  obtain ⟨x, hx, rfl, hphase⟩ := hrun
  refine goesOn_rest hs (fun y hy hid => ?_) now
  obtain rfl := List.inj_on_of_nodup_map hs.loopIds hy hx hid
  simp [Loop.isPolling, hphase]

theorem course_ran (hs : Sound us s) {l : LoopId}
    (hrun : ∃ x ∈ s.loops, x.id = l ∧ x.phase = .running) (now : Nat) (ending : Ending Unit) :
    ∃ d, Course s d (s.ran l now ending).1 ∧ d.bind (·.initialized?) = none ∧
      d.bind (·.refused?) = none ∧
      d.bind (·.displaced?) = s.displaced? (.ran l now ending) ∧
      d.bind (·.way?) ≠ some .unregistered := by
  rcases ran_cases s l now ending with ⟨hx, heq⟩ | ⟨x, hx, ⟨hvalue, heq⟩ | ⟨error, hfail, heq⟩⟩
  · rw [heq]
    exact ⟨none, .stays s, rfl, rfl, by simp [displaced?, hx], by simp⟩
  · rw [heq]
    exact ⟨none, (goesOn_rest_of_running hs hrun now).course, rfl, rfl,
      by simp [displaced?, Ending.isFailure_eq, hvalue], by simp⟩
  · have hwarned := goesOn_warned s error
    cases hd : s.dropped with
    | true =>
      rw [heq, if_pos hd]
      exact ⟨none, (hwarned.then (goesOn_endLoop _ l)).course, rfl, rfl,
        by simp [displaced?, hd], by simp⟩
    | false =>
      obtain ⟨hmem, rfl⟩ := loop?_eq_some hx
      obtain ⟨d, hcourse, htells⟩ := course_fail (hs.goesOn hwarned) (x := x) hmem error
      rw [hwarned.registry] at htells
      rw [heq, if_neg (by simp [hd])]
      refine ⟨d, hwarned.course.after hcourse, ?_⟩
      simpa [displaced?, Ending.isFailure_eq, hd, hfail, hx] using htells

end TaskSet

end Overseer
