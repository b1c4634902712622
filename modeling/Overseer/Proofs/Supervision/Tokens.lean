import Overseer.Proofs.Supervision.Started

/-!
# Why loops are stopped

The exit token of a loop is cancelled with its registration, when that leaves, or with the root
token. No turn of a loop cancels one (`Heeds`). So of a set that has started nothing that is
registered has a loop that was cancelled, as long as the root token is not (`unstopped_of_run`), and
every registration has a loop that polls with nothing to stop it, unless the root token is
cancelled or the loop was dropped (`hasLoop_of_started`).
-/

namespace Overseer

variable {κ ξ : Type}

namespace TaskSet

variable {s t u : TaskSet κ ξ} {l : LoopId} {ls ls' : List LoopId} {c : CallId}
  {p : CallPhase κ ξ} {turn : CallTurn} {us : List CallId} {r : Registration κ ξ}
  {h : List (SetOccurrence κ ξ)} {e : SetEvent κ ξ}

/-- The loops of `t` are loops of `s`, and no exit token has been cancelled since but those of
`ls`. -/
structure Heeds (ls : List LoopId) (s t : TaskSet κ ξ) : Prop where
  loops : ∀ y ∈ t.loops, ∃ x ∈ s.loops, x.id = y.id ∧
    (y.cancelled = true → x.cancelled = true ∨ y.id ∈ ls)
  root : t.rootCancelled = s.rootCancelled

theorem heeds_of_same (hl : t.loops = s.loops) (hr : t.rootCancelled = s.rootCancelled) :
    Heeds [] s t :=
  ⟨fun y hy => ⟨y, hl ▸ hy, rfl, .inl⟩, hr⟩

theorem Heeds.refl (s : TaskSet κ ξ) : Heeds [] s s := heeds_of_same rfl rfl

theorem Heeds.trans (h : Heeds ls s t) (h' : Heeds ls' t u) : Heeds (ls ++ ls') s u := by
  refine ⟨fun z hz => ?_, h'.root.trans h.root⟩
  obtain ⟨y, hy, hyz, hcancel'⟩ := h'.loops z hz
  obtain ⟨x, hx, hxy, hcancel⟩ := h.loops y hy
  refine ⟨x, hx, hxy.trans hyz, fun hz => ?_⟩
  rcases hcancel' hz with hy | hmem
  · exact (hcancel hy).imp_right fun hmem => List.mem_append_left _ (hyz ▸ hmem)
  · exact .inr (List.mem_append_right _ hmem)

theorem Heeds.then (h : Heeds ls s t) (h' : Heeds [] t u) : Heeds ls s u := by
  simpa using h.trans h'

/-! ## Turns of loops -/

/-- A loop comes to another phase. -/
theorem heeds_setLoop (s : TaskSet κ ξ) (l : LoopId) (phase : LoopPhase) :
    Heeds [] s (s.setLoop l fun x => { x with phase := phase }) := by
  refine ⟨fun y hy => ?_, rfl⟩
  obtain ⟨x, hx, rfl⟩ := List.mem_map.1 hy
  refine ⟨x, hx, ?_, fun hc => .inl ?_⟩
  · split <;> rfl
  · split at hc <;> exact hc

theorem heeds_cancelLoop (s : TaskSet κ ξ) (l : LoopId) : Heeds [l] s (s.cancelLoop l) := by
  unfold cancelLoop
  split
  · refine ⟨fun y hy => ?_, rfl⟩
    obtain ⟨x, hx, rfl⟩ := List.mem_map.1 hy
    refine ⟨x, hx, ?_, fun hc => ?_⟩
    · split <;> rfl
    · split at hc
      · rename_i hid
        rw [if_pos hid]
        exact .inr (by simpa using hid)
      · exact .inl hc
  · exact ⟨fun y hy => ⟨y, hy, rfl, .inl⟩, rfl⟩

theorem heeds_forgetLoop (s : TaskSet κ ξ) (l : LoopId) : Heeds [] s (s.forgetLoop l) := by
  refine ⟨fun y hy => ⟨y, mem_of_mem_forgetLoop hy, rfl, .inl⟩, ?_⟩
  unfold forgetLoop
  split
  · rfl
  · split <;> rfl

theorem heeds_endLoop (s : TaskSet κ ξ) (l : LoopId) : Heeds [] s (s.endLoop l) := by
  have hwake : ∀ t : TaskSet κ ξ, Heeds [] t t.wakeDraining := fun t => by
    refine heeds_of_same (loops_wakeDraining t) ?_
    have hnotify : ∀ (xs : List (Call κ ξ)) (t : TaskSet κ ξ),
        (xs.foldl (fun s x => s.notify (.wakeCall x.id)) t).rootCancelled = t.rootCancelled := by
      intro xs
      induction xs with
      | nil => exact fun _ => rfl
      | cons x xs ih => exact fun t => ih (t.notify (.wakeCall x.id))
    unfold wakeDraining
    split
    · exact hnotify _ t
    · rfl
  have hroot : ∀ t : TaskSet κ ξ, Heeds [] t t.forgetRoot := fun t => by
    refine heeds_of_same (loops_forgetRoot t) ?_
    unfold forgetRoot
    split <;> rfl
  exact (((heeds_setLoop s l .ended).then (hwake _)).then (heeds_forgetLoop _ l)).then (hroot _)

theorem heeds_rest (s : TaskSet κ ξ) (l : LoopId) (now : Nat) : Heeds [] s (s.rest l now).1 := by
  unfold rest
  split
  · exact .refl s
  · split
    · exact heeds_endLoop s l
    · exact heeds_setLoop s l _

theorem heeds_pollLoop (s : TaskSet κ ξ) (l : LoopId) (now : Nat) :
    Heeds [] s (s.pollLoop l now).1 := by
  unfold pollLoop
  cases s.loop? l with
  | none => exact .refl s
  | some x =>
    cases hp : x.phase with
    | spawned =>
      simp only [hp]
      have hrecord : Heeds [] s (s.loopRecord .debug "Task loop started."
          [("period_ms", .number x.period.millis)]) := heeds_of_same rfl rfl
      exact hrecord.then (heeds_rest _ l now)
    | waiting deadline =>
      simp only [hp]
      split
      · exact heeds_endLoop s l
      · split
        · exact heeds_setLoop s l _
        · exact .refl s
    | _ =>
      simp only [hp]
      exact .refl s

theorem heeds_fail (s : TaskSet κ ξ) (l : LoopId) (task : TaskRef) (error : Fault) :
    Heeds [] s (s.fail l task error).1 := by
  unfold fail
  split
  · have hrecord : Heeds [] s (s.record .debug "Task failed after being removed."
        [("task", .text task.name), ("error", .text error.text)]) := heeds_of_same rfl rfl
    exact hrecord.then (heeds_endLoop _ l)
  · rename_i r _
    have hgone : Heeds [] s
        ({ s with registry := s.registry.remove task.id }.tearDown r .failed) :=
      heeds_of_same rfl rfl
    have hforget : ∀ t : TaskSet κ ξ, Heeds [] t (r.loop.elim t t.forgetLoop) := fun t => by
      cases r.loop with
      | none => exact .refl t
      | some l' => exact heeds_forgetLoop t l'
    dsimp only
    split
    · exact (hgone.then (hforget _)).then (heeds_endLoop _ l)
    · exact (hgone.then (hforget _)).then (heeds_setLoop _ l _)

theorem heeds_ran (s : TaskSet κ ξ) (l : LoopId) (now : Nat) (ending : Ending Unit) :
    Heeds [] s (s.ran l now ending).1 := by
  rcases ran_cases s l now ending with ⟨-, heq⟩ | ⟨x, -, ⟨-, heq⟩ | ⟨error, -, heq⟩⟩
  · rw [heq]
    exact .refl s
  · rw [heq]
    exact heeds_rest s l now
  · have hwarned : Heeds [] s (s.warned error) := heeds_of_same rfl rfl
    rw [heq]
    split
    · exact hwarned.then (heeds_endLoop _ l)
    · exact hwarned.then (heeds_fail _ l _ error)

theorem heeds_reported (s : TaskSet κ ξ) (l : LoopId) (poolName : String)
    (result : Except PoolError Unit) : Heeds [] s (s.reported l poolName result) := by
  cases result with
  | ok _ => exact heeds_endLoop s l
  | error x =>
    have hrecord : Heeds [] s (s.record .error "Failed to submit task error callback."
        [("pool", .text poolName), ("error", .text x.message)]) := heeds_of_same rfl rfl
    exact hrecord.then (heeds_endLoop _ l)

theorem heeds_killLoop (s : TaskSet κ ξ) (l : LoopId) : Heeds [] s (s.killLoop l) := by
  unfold killLoop
  split
  · exact .refl s
  · split
    · exact .refl s
    · exact heeds_endLoop s l

/-- Who is unregistered has the exit token cancelled. -/
theorem heeds_unregister {task : TaskRef} (hr : s.registry.lookup? task.id = some r) :
    Heeds r.loop.toList s (s.unregister task).1 := by
  have hgone : Heeds [] s { s with registry := s.registry.remove task.id } := heeds_of_same rfl rfl
  unfold unregister retire
  simp only [hr]
  cases r.loop with
  | none => exact heeds_of_same rfl rfl
  | some l =>
    have htear : ∀ t : TaskSet κ ξ, Heeds [] t (t.tearDown r .stopped) := fun t =>
      heeds_of_same rfl rfl
    exact ((hgone.trans (heeds_cancelLoop _ l)).then (htear _)).then (heeds_forgetLoop _ l)

/-! ## Who is registered -/

/-- While the set has started and its root token is not cancelled, no registration has a loop that
was cancelled. -/
def Unstopped (s : TaskSet κ ξ) : Prop :=
  s.lifecycle = .started → s.rootCancelled = false → ∀ r ∈ s.registry, ∀ x ∈ s.loops,
    r.loop = some x.id → x.cancelled = false

/-- What leaves cancels no exit token but its own. -/
theorem Unstopped.heeds (hu : Unstopped s) (hh : Heeds ls s t)
    (hl : t.lifecycle = .started → s.lifecycle = .started)
    (hr : ∀ r ∈ t.registry, r ∈ s.registry)
    (hfree : ∀ r ∈ t.registry, ∀ l ∈ ls, r.loop ≠ some l) : Unstopped t := by
  intro hst hroot r hmem y hy hloop
  obtain ⟨x, hx, hxy, hcancel⟩ := hh.loops y hy
  have hbefore := hu (hl hst) (hh.root ▸ hroot) r (hr r hmem) x hx (hxy ▸ hloop)
  refine Bool.eq_false_iff.2 fun hc => ?_
  rcases hcancel hc with hc | hown
  · simp [hbefore] at hc
  · exact hfree r hmem y.id hown hloop

theorem Unstopped.alike {torn : List TaskRef} (hu : Unstopped s) (ht : Alike torn s t) :
    Unstopped t := by
  have hroot : t.rootCancelled = s.rootCancelled := by rw [ht.same]
  refine hu.heeds (heeds_of_same ht.loops hroot) (fun hl => ht.lifecycle ▸ hl) (fun r hr => ?_)
    (by simp)
  exact ht.registry ▸ hr

/-- A loop that starts has its exit token from the root token. -/
theorem cancelled_startLoop (s : TaskSet κ ξ) (id : TaskId) :
    (s.startLoop id).rootCancelled = s.rootCancelled ∧
      ∀ y ∈ (s.startLoop id).loops, y ∈ s.loops ∨ y.cancelled = s.rootCancelled := by
  cases hr : s.registry.lookup? id with
  | none =>
    have hsame : s.startLoop id = s := by simp [startLoop, hr]
    rw [hsame]
    exact ⟨rfl, fun _ => .inl⟩
  | some r =>
    rw [startLoop_eq hr]
    refine ⟨rfl, fun y hy => ?_⟩
    rcases List.mem_append.1 hy with hy | hy
    · exact .inl hy
    · obtain rfl := List.mem_singleton.1 hy
      exact .inr rfl

theorem cancelled_startLoops (ids : List TaskId) : ∀ s : TaskSet κ ξ,
    (ids.foldl startLoop s).rootCancelled = s.rootCancelled ∧
      ∀ y ∈ (ids.foldl startLoop s).loops, y ∈ s.loops ∨ y.cancelled = s.rootCancelled := by
  induction ids with
  | nil => exact fun s => ⟨rfl, fun _ => .inl⟩
  | cons id ids ih =>
    intro s
    obtain ⟨hroot, hloops⟩ := cancelled_startLoop s id
    obtain ⟨hroot', hloops'⟩ := ih (s.startLoop id)
    refine ⟨hroot'.trans hroot, fun y hy => ?_⟩
    rcases hloops' y hy with hy | hy
    · exact hloops y hy
    · exact .inr (hy.trans hroot)

/-- The first loops of a set start together. -/
theorem unstopped_launched (hs : Sound us s) (hc : ⟨c, .concluding⟩ ∈ s.calls)
    (hl : s.lifecycle ≠ .terminated) (b : Bool) : Unstopped (s.launched c b) := by
  have hstarting := (hs.starting _ hc rfl).resolve_right hl
  have hnone : s.loops = [] := hs.loops_eq_nil (by simp [hstarting]) hl
  obtain ⟨hroot, hloops⟩ := cancelled_startLoops (s.registry.tasks.map (·.id))
    ({ s with lifecycle := .started, isRooted := true, rootCancelled := b }.without c)
  intro _ hno r _ y hy _
  rcases hloops y hy with hy | hy
  · have hy : y ∈ s.loops := hy
    simp [hnone] at hy
  · rw [hy, ← hroot]
    exact hno

/-- Who comes in late has a new loop, and nobody else's is touched. -/
theorem Unstopped.enroll (hu : Unstopped s) (hs : Sound us s)
    (hn : (List.map (·.task.id) (s.admitted r c).registry).Nodup) :
    Unstopped ((s.enroll r).without c) := by
  intro hl
  have hl' : s.lifecycle = .started := (enroll_same s r c).1.symm.trans hl
  have hfound : (s.registry.insert r).lookup? r.task.id = some r :=
    Registry.lookup?_eq_some hn (Registry.mem_insert.2 (.inl rfl))
  rw [enroll_of_started hl', startLoop_eq hfound]
  intro hroot a ha y hy hloop
  have hroot : s.rootCancelled = false := hroot
  rcases List.mem_append.1 hy with hy | hy
  · have hy : y ∈ s.loops := hy
    obtain ⟨b, hb, ⟨-, rfl⟩ | ⟨hne, rfl⟩⟩ := Registry.mem_modify ha
    · -- a new loop has a new number
      have hnext : s.nextLoop = y.id := Option.some.inj hloop
      exact absurd (hs.loopsOld y hy) (hnext ▸ Nat.lt_irrefl _)
    · rcases Registry.mem_insert.1 hb with rfl | hb
      · exact absurd rfl hne
      · exact hu hl' hroot _ hb y hy hloop
  · obtain rfl := List.mem_singleton.1 hy
    exact hroot

theorem unstopped_of_lifecycle (hl : s.lifecycle ≠ .started) : Unstopped s :=
  fun hst => absurd hst hl

theorem Takes.unstopped (ht : Takes c s p t turn) (hs : Sound us s) (hp : ⟨c, p⟩ ∈ s.calls)
    (hu : Unstopped s) : Unstopped t := by
  induction ht with
  | waits s p => exact hu
  | alike ha _ ih => exact ih (hs.goesOn ha.goesOn) (ha.calls ▸ hp) (hu.alike ha)
  | unqueues _ _ ih => exact ih ((Move.shifts hp .unqueue).sound hs) (mem_setPhase_self hp) hu
  | @opens s t turn hpending _ ih =>
    have hp' : ⟨c, .opening⟩ ∈ ({ s with lifecycle := .starting } : TaskSet κ ξ).calls := hp
    exact ih ((Move.opens hp hpending).sound hs) (mem_setPhase_self hp') nofun
  | passes _ ht => exact Unstopped.alike (s := TaskSet.without _ c) hu ht
  | fails _ ht => exact Unstopped.alike (s := TaskSet.without _ c) hu ht
  | expires _ _ ht => exact Unstopped.alike (s := TaskSet.without _ c) hu ht
  | prepares _ ht => exact Unstopped.alike (s := TaskSet.setPhase _ c _) hu ht
  | starts b hl ht => exact (unstopped_launched hs hp hl b).alike ht
  | @givesUp s t current source ht =>
    refine Unstopped.alike (unstopped_of_lifecycle ?_) ht
    by_cases hl : s.lifecycle = Lifecycle.terminated <;> simp [givenUp, without, hl]
  | comesLate _ _ ht => exact Unstopped.alike (s := TaskSet.setPhase _ c _) hu ht
  | refuses _ ht => exact Unstopped.alike (s := TaskSet.without _ c) hu ht
  | @enrolls s t p r hphase hr ht =>
    have hreg : p.registration? = some r := by rcases hphase with ⟨rfl, -⟩ | rfl <;> rfl
    exact (hu.enroll hs (hs.admitted hp hreg hr).tasks).alike ht
  | loses _ ht => exact Unstopped.alike (s := TaskSet.without _ c) hu ht
  | demolishes ht =>
    exact unstopped_of_lifecycle ((ht.lifecycle.trans (lifecycle_cleared _)).trans_ne (by simp))
  | drains ht =>
    exact unstopped_of_lifecycle ((ht.lifecycle.trans (lifecycle_cleared _)).trans_ne (by simp))
  | ends ht => exact Unstopped.alike (s := TaskSet.without _ c) hu ht

/-! ## Histories -/

/-- In a set that has started, no two registrations have one loop. -/
theorem loop_unique (hrun : (setSystem κ ξ).Run h s) (hl : s.lifecycle = .started)
    {a b : Registration κ ξ} (ha : a ∈ s.registry) (hb : b ∈ s.registry) (heq : a.loop = b.loop) :
    a = b := by
  have hs := sound_of_run hrun
  obtain ⟨x, hx, hax, hak, -⟩ := tended_of_run hrun hl a ha
  obtain ⟨y, hy, hby, hbk, -⟩ := tended_of_run hrun hl b hb
  have hid : x.id = y.id := Option.some.inj (hax.symm.trans (heq.trans hby))
  obtain rfl := List.inj_on_of_nodup_map hs.loopIds hx hy hid
  exact List.inj_on_of_nodup_map hs.tickets ha hb (hak.symm.trans hbk)

theorem unstopped_of_perform (hrun : (setSystem κ ξ).Run h s) (hall : allows h s e = true)
    (hc : e.caller? = none) (hu : Unstopped s) : Unstopped (s.perform e).1 := by
  have hw := wanes_of_perform (sound_of_run hrun) hall hc
  have hsame : Heeds [] s (s.perform e).1 → Unstopped (s.perform e).1 := fun hh =>
    hu.heeds hh (fun hl => hw.lifecycle ▸ hl) (fun r hr => hw.registry.subset hr) (by simp)
  cases e with
  | abandon c =>
    show Unstopped (s.abandon c)
    unfold abandon
    split
    · exact Unstopped.alike (s := s.without c) hu (alike_endCall s c)
    · exact hu
  | unregister task =>
    cases hr : s.registry.lookup? task.id with
    | none =>
      show Unstopped (s.unregister task).1
      simpa [unregister, hr] using hu
    | some r =>
      by_cases hl : s.lifecycle = .started
      · refine hu.heeds (heeds_unregister hr) (fun _ => hl) (fun a ha => hw.registry.subset ha)
          fun a ha l hmem hloop => ?_
        have ha' : a ∈ s.registry.remove task.id := (unregister_same s task).2.2 ▸ ha
        obtain ⟨ha', hne⟩ := Registry.mem_remove.1 ha'
        have heq : a = r := loop_unique hrun hl ha' (Registry.mem_of_lookup? hr)
          (hloop.trans (Option.mem_toList.1 hmem).symm)
        exact hne (heq ▸ Registry.id_of_lookup? hr)
      · exact unstopped_of_lifecycle (hw.lifecycle.trans_ne hl)
  | pollLoop l now => exact hsame (heeds_pollLoop s l now)
  | ran l now ending => exact hsame (heeds_ran s l now ending)
  | reported l poolName result => exact hsame (heeds_reported s l poolName result)
  | killLoop l => exact hsame (heeds_killLoop s l)
  | cancelRoot =>
    show Unstopped s.cancelRoot
    unfold cancelRoot
    split
    · exact hu
    · exact fun _ hroot => by cases hroot
  | drop =>
    intro _ _ r hr
    have hempty : (s.perform .drop).1.registry = [] := registry_drop s
    simp [hempty] at hr
  | _ => contradiction

theorem unstopped_of_run (hrun : (setSystem κ ξ).Run h s) : Unstopped s := by
  induction hrun with
  | start hstart =>
    obtain ⟨name, pool, rfl⟩ := hstart
    exact nofun
  | @next h s e hrun hall ih =>
    have hs := sound_of_run hrun
    suffices hnext : Unstopped (s.perform e).1 from hnext
    cases hc : e.caller? with
    | none => exact unstopped_of_perform hrun hall hc ih
    | some c =>
      obtain ⟨turn, -, hgives⟩ := gives_of_perform hs hall hc
      have hentered := hs.entered hall
      generalize (s.perform e).1 = t at hgives
      cases hgives with
      | begins ht => exact ht.unstopped hentered (mem_addCall_self _ _ _) ih
      | polls hp ht => exact ht.unstopped hs hp ih
      | comesBack hp ht =>
        exact ht.unstopped ((Move.shifts hp (.comeBack _)).sound hs) (mem_setPhase_self hp) ih
      | breaks _ ht => exact Unstopped.alike (s := s.without _) ih ht
      | @goesOn d current rest b _ _ hp ht =>
        have hmove := Move.shifts (s := s.marked current.task.id) hp (.goOn current rest)
        refine ht.unstopped (hmove.sound (hs.marks current.task.id))
          (mem_setPhase_self (s := s.marked current.task.id) hp) fun hl => ?_
        -- startup is under way, so the set has not started
        have hl : s.lifecycle = .started := hl
        have hstarting := hs.starting _ hp rfl
        simp [hl] at hstarting
      | aborts hp ht =>
        exact ht.unstopped ((Move.shifts hp (.abort _ _ _)).sound hs) (mem_setPhase_self hp) ih
      | misses _ _ => exact ih

/-- The registration has a loop of its own, which polls with nothing to stop it unless the root
token is cancelled or the loop was dropped. -/
def HasLoop (ks : List LoopId) (s : TaskSet κ ξ) (r : Registration κ ξ) : Prop :=
  ∃ x ∈ s.loops, r.loop = some x.id ∧ x.ticket = r.ticket ∧ x.task = r.task ∧
    (x.isLive = true ∨ s.rootCancelled = true ∨ x.id ∈ ks)

theorem hasLoop_of_started (hrun : (setSystem κ ξ).Run h s) (hl : s.lifecycle = .started)
    (hr : r ∈ s.registry) : HasLoop (killed h) s r := by
  obtain ⟨x, hx, hloop, hticket, htask, hphase, hended⟩ := tended_of_run hrun hl r hr
  refine ⟨x, hx, hloop, hticket, htask, ?_⟩
  cases hroot : s.rootCancelled with
  | true => exact .inr (.inl rfl)
  | false =>
    have hc := unstopped_of_run hrun hl hroot r hr x hx hloop
    cases hp : x.phase with
    | ended => exact .inr (.inr ((hended hp).resolve_left (by simp [hc])))
    | reporting => exact absurd hp hphase
    | _ => exact .inl (by simp [Loop.isLive, Loop.isPolling, hp, hc])

end TaskSet

end Overseer
