import Overseer.Proofs.Supervision.Outcomes
import Overseer.Proofs.Supervision.Stillness

/-!
# Registered tasks keep their loops

The exit token of a loop is forgotten only if no registration refers to it. So a loop that a
registration refers to lasts: it is still there when the set has become another, it has come to
no end but by being cancelled or dropped, and it has not failed (`Loop.Lasts`). `Minds ks s t` says
this of all registrations that are left in `t`, where `ks` are the loops that have been dropped.
There is one lemma for each function that touches loops, and `minds_of_perform` for every event
that is no call's turn.

A loop that fails looks for its registration by the task, and takes it out. That it takes out
what refers to it needs to be known of the registrations: `IsPolled ks s r` says that the
registration `r` has a loop of its own, for its task.
-/

namespace Overseer

variable {κ ξ : Type}

/-- The loop `y` is the loop `x` at a later time. Unless it was cancelled or dropped, it has not
come to its end meanwhile, and it has not failed. -/
structure Loop.Lasts (ks : List LoopId) (y x : Loop) : Prop where
  id : y.id = x.id
  ticket : y.ticket = x.ticket
  task : y.task = x.task
  cancelled : x.cancelled = true → y.cancelled = true
  ended : y.phase = .ended → x.phase = .ended ∨ y.cancelled = true ∨ y.id ∈ ks
  reporting : y.phase = .reporting → x.phase = .reporting

namespace Loop

variable {ks : List LoopId} {x y z : Loop}

theorem Lasts.refl (x : Loop) : x.Lasts ks x := ⟨rfl, rfl, rfl, fun h => h, .inl, fun h => h⟩

theorem Lasts.trans (h : z.Lasts ks y) (h' : y.Lasts ks x) : z.Lasts ks x where
  id := h.id.trans h'.id
  ticket := h.ticket.trans h'.ticket
  task := h.task.trans h'.task
  cancelled hx := h.cancelled (h'.cancelled hx)
  ended hz := by
    rcases h.ended hz with hy | hc | hk
    · rcases h'.ended hy with hx | hc | hk
      · exact .inl hx
      · exact .inr (.inl (h.cancelled hc))
      · exact .inr (.inr (h.id ▸ hk))
    · exact .inr (.inl hc)
    · exact .inr (.inr hk)
  reporting hz := h'.reporting (h.reporting hz)

end Loop

namespace TaskSet

variable {ks : List LoopId} {s t u : TaskSet κ ξ} {us : List CallId} {l : LoopId}
  {r : Registration κ ξ}

/-- The registration has a loop of its own, which has not failed, and has come to its end only if
it was cancelled or dropped. -/
def IsPolled (ks : List LoopId) (s : TaskSet κ ξ) (r : Registration κ ξ) : Prop :=
  ∃ x ∈ s.loops, r.loop = some x.id ∧ x.ticket = r.ticket ∧ x.task = r.task ∧
    x.phase ≠ .reporting ∧ (x.phase = .ended → x.cancelled = true ∨ x.id ∈ ks)

/-- The loops to which registrations of `t` refer have lasted since `s`. -/
structure Minds (ks : List LoopId) (s t : TaskSet κ ξ) : Prop where
  registry : ∀ r ∈ t.registry, r ∈ s.registry
  loops : ∀ r ∈ t.registry, ∀ x ∈ s.loops, r.loop = some x.id → ∃ y ∈ t.loops, y.Lasts ks x

theorem Minds.trans (h : Minds ks s t) (h' : Minds ks t u) : Minds ks s u := by
  refine ⟨fun r hr => h.registry r (h'.registry r hr), fun r hr x hx hl => ?_⟩
  obtain ⟨y, hy, hyx⟩ := h.loops r (h'.registry r hr) x hx hl
  obtain ⟨z, hz, hzy⟩ := h'.loops r hr y hy (hyx.id ▸ hl)
  exact ⟨z, hz, hzy.trans hyx⟩

theorem minds_of_same (hr : t.registry = s.registry) (hl : t.loops = s.loops) : Minds ks s t :=
  ⟨fun _ h => hr ▸ h, fun _ _ x hx _ => ⟨x, hl ▸ hx, .refl x⟩⟩

theorem Minds.refl (s : TaskSet κ ξ) : Minds ks s s := minds_of_same rfl rfl

theorem IsPolled.mono {ks' : List LoopId} (h : IsPolled ks s r) (hks : ∀ l ∈ ks, l ∈ ks') :
    IsPolled ks' s r := by
  obtain ⟨x, hx, hl, hk, htask, hphase, hended⟩ := h
  exact ⟨x, hx, hl, hk, htask, hphase, fun h => (hended h).imp_right (hks _)⟩

/-- What is registered still has its loop. -/
theorem Minds.polled (h : Minds ks s t) (hs : ∀ r ∈ s.registry, IsPolled ks s r) :
    ∀ r ∈ t.registry, IsPolled ks t r := by
  intro r hr
  obtain ⟨x, hx, hl, hk, htask, hphase, hended⟩ := hs r (h.registry r hr)
  obtain ⟨y, hy, hyx⟩ := h.loops r hr x hx hl
  refine ⟨y, hy, hyx.id ▸ hl, hyx.ticket.trans hk, hyx.task.trans htask,
    fun hy => hphase (hyx.reporting hy), fun hy => ?_⟩
  rcases hyx.ended hy with hx | hc | hkill
  · exact (hended hx).imp hyx.cancelled fun hkill => hyx.id.symm ▸ hkill
  · exact .inl hc
  · exact .inr hkill

theorem Minds.foldl {α : Type} {f : TaskSet κ ξ → α → TaskSet κ ξ}
    (hf : ∀ s a, Minds ks s (f s a)) (xs : List α) (s : TaskSet κ ξ) :
    Minds ks s (xs.foldl f s) := by
  induction xs generalizing s with
  | nil => exact .refl s
  | cons a xs ih => exact (hf s a).trans (ih _)

/-! ## Small changes -/

theorem minds_setLoop {f : Loop → Loop} (hf : (∀ r ∈ s.registry, r.loop ≠ some l) ∨
    ∀ x ∈ s.loops, x.id = l → (f x).Lasts ks x) : Minds ks s (s.setLoop l f) := by
  refine ⟨fun _ h => h, fun r hr x hx hl => ?_⟩
  refine ⟨if x.id == l then f x else x, List.mem_map_of_mem hx, ?_⟩
  split
  · rename_i hxl
    have hxl : x.id = l := by simpa using hxl
    rcases hf with hfree | hlasts
    · exact absurd (hxl ▸ hl) (hfree r hr)
    · exact hlasts x hx hxl
  · exact .refl x

theorem minds_cancelLoop (s : TaskSet κ ξ) (l : LoopId) : Minds ks s (s.cancelLoop l) := by
  unfold cancelLoop
  split
  · have hset : Minds ks s (s.setLoop l fun x => { x with cancelled := true }) :=
      minds_setLoop (.inr fun x _ _ =>
        ⟨rfl, rfl, rfl, fun _ => rfl, fun _ => .inr (.inl rfl), fun h => h⟩)
    exact hset.trans (minds_of_same rfl rfl)
  · exact .refl s

theorem minds_cancelRoot (s : TaskSet κ ξ) : Minds ks s s.cancelRoot := by
  unfold cancelRoot
  split
  · exact .refl s
  · exact (Minds.foldl (fun s (x : Loop) => minds_cancelLoop s x.id) _ s).trans
      (minds_of_same rfl rfl)

theorem minds_forgetLoop (s : TaskSet κ ξ) (l : LoopId) : Minds ks s (s.forgetLoop l) := by
  unfold forgetLoop
  cases hx : s.loop? l with
  | none => exact .refl s
  | some x =>
    dsimp only
    split
    · rename_i hgone
      have hclaimed : s.isClaimed l = false := by simp_all
      obtain ⟨hmem, hid⟩ := loop?_eq_some hx
      have hlt : s.loops.findIdx (·.id == l) < s.loops.length :=
        List.findIdx_lt_length.2 ⟨x, hmem, by simpa using hid⟩
      refine ⟨fun _ h => h, fun r hr y hy hl => ⟨y, mem_swapRemove hy hlt ?_, .refl y⟩⟩
      -- the loop that goes is the one that nobody refers to
      rintro rfl
      have hfound := List.findIdx_getElem (w := hlt)
      have hyl : (s.loops[s.loops.findIdx (·.id == l)]).id = l := by simpa using hfound
      rw [hyl] at hl
      simp only [isClaimed, List.any_eq_false, beq_iff_eq] at hclaimed
      exact hclaimed r hr hl
    · exact .refl s

theorem minds_elim_forgetLoop (s : TaskSet κ ξ) (l : Option LoopId) :
    Minds ks s (l.elim s s.forgetLoop) := by
  cases l with
  | none => exact .refl s
  | some l => exact minds_forgetLoop s l

theorem registry_wakeDraining (s : TaskSet κ ξ) : s.wakeDraining.registry = s.registry :=
  (goesOn_wakeDraining s).registry

/-- A loop comes to its end, if it was cancelled or is dropped, or nobody refers to it. -/
theorem minds_endLoop (h : (∀ r ∈ s.registry, r.loop ≠ some l) ∨
    ∀ x ∈ s.loops, x.id = l → x.phase = .ended ∨ x.cancelled = true ∨ l ∈ ks) :
    Minds ks s (s.endLoop l) := by
  have hset : Minds ks s (s.setLoop l fun x => { x with phase := .ended }) := by
    refine minds_setLoop (h.imp_right fun h x hx hid => ?_)
    exact ⟨rfl, rfl, rfl, fun hc => hc, fun _ => hid.symm ▸ h x hx hid, nofun⟩
  have hwake : Minds ks (s.setLoop l fun x => { x with phase := .ended })
      (s.setLoop l fun x => { x with phase := .ended }).wakeDraining :=
    minds_of_same (registry_wakeDraining _) (loops_wakeDraining _)
  have hroot : ∀ t : TaskSet κ ξ, Minds ks t t.forgetRoot := fun t =>
    minds_of_same (goesOn_forgetRoot t).registry (loops_forgetRoot t)
  exact ((hset.trans hwake).trans (minds_forgetLoop _ l)).trans (hroot _)

/-- What has left the registry is torn down. -/
theorem minds_retire (s : TaskSet κ ξ) (r : Registration κ ξ) (why : Departure) :
    Minds ks s (s.retire r why) := by
  unfold retire
  split
  · exact minds_of_same rfl rfl
  · rename_i l _
    have htear : Minds ks (s.cancelLoop l) ((s.cancelLoop l).tearDown r why) :=
      minds_of_same rfl rfl
    exact ((minds_cancelLoop s l).trans htear).trans (minds_forgetLoop _ l)

theorem minds_remove (s : TaskSet κ ξ) (id : TaskId) :
    Minds ks s { s with registry := s.registry.remove id } :=
  ⟨fun _ hr => (Registry.mem_remove.1 hr).1, fun _ _ x hx _ => ⟨x, hx, .refl x⟩⟩

/-! ## Turns of loops -/

theorem minds_rest (hn : (s.loops.map (·.id)).Nodup) (l : LoopId) (now : Nat) :
    Minds ks s (s.rest l now).1 := by
  unfold rest
  split
  · exact .refl s
  · rename_i x hfound
    obtain ⟨hx, rfl⟩ := loop?_eq_some hfound
    split
    · rename_i hc
      refine minds_endLoop (.inr fun y hy hid => ?_)
      obtain rfl := List.inj_on_of_nodup_map hn hy hx hid
      exact .inr (.inl hc)
    · exact minds_setLoop (.inr fun _ _ _ => ⟨rfl, rfl, rfl, fun h => h, nofun, nofun⟩)

theorem minds_pollLoop (hn : (s.loops.map (·.id)).Nodup) (l : LoopId) (now : Nat) :
    Minds ks s (s.pollLoop l now).1 := by
  unfold pollLoop
  cases h : s.loop? l with
  | none => exact .refl s
  | some x =>
    obtain ⟨hx, rfl⟩ := loop?_eq_some h
    cases hp : x.phase with
    | spawned =>
      simp only [hp]
      have hrecord : Minds ks s (s.loopRecord .debug "Task loop started."
          [("period_ms", .number x.period.millis)]) := minds_of_same rfl rfl
      exact hrecord.trans (minds_rest (by exact hn) x.id now)
    | waiting deadline =>
      simp only [hp]
      split
      · rename_i hc
        refine minds_endLoop (.inr fun y hy hid => ?_)
        obtain rfl := List.inj_on_of_nodup_map hn hy hx hid
        exact .inr (.inl hc)
      · split
        · exact minds_setLoop (.inr fun _ _ _ => ⟨rfl, rfl, rfl, fun h => h, nofun, nofun⟩)
        · exact .refl s
    | _ =>
      simp only [hp]
      exact .refl s

/-- Who refers to a loop is registered for its task, and the loop has not failed. -/
theorem IsPolled.task (hp : IsPolled ks s r) (hn : (s.loops.map (·.id)).Nodup) {x : Loop}
    (hx : x ∈ s.loops) (hl : r.loop = some x.id) : x.task = r.task ∧ x.phase ≠ .reporting := by
  obtain ⟨y, hy, hl', -, htask, hphase, -⟩ := hp
  have hid : y.id = x.id := Option.some.inj (hl'.symm.trans hl)
  obtain rfl := List.inj_on_of_nodup_map hn hy hx hid
  exact ⟨htask, hphase⟩

/-- A loop that fails takes out what refers to it. -/
theorem minds_fail (hn : (s.loops.map (·.id)).Nodup) (hp : ∀ r ∈ s.registry, IsPolled ks s r)
    {x : Loop} (hx : x ∈ s.loops) (error : Fault) :
    Minds ks s (s.fail x.id x.task error).1 := by
  have hfree : ∀ r ∈ s.registry.remove x.task.id, r.loop ≠ some x.id := by
    intro r hr hl
    obtain ⟨hr, hne⟩ := Registry.mem_remove.1 hr
    exact hne (congrArg (·.id) ((hp r hr).task hn hx hl).1.symm)
  unfold fail
  cases h : s.registry.lookup? x.task.id with
  | none =>
    have hrecord : Minds ks s (s.record .debug "Task failed after being removed."
        [("task", .text x.task.name), ("error", .text error.text)]) := minds_of_same rfl rfl
    refine hrecord.trans (minds_endLoop (.inl fun r hr => hfree r (Registry.mem_remove.2 ⟨hr, ?_⟩)))
    simpa using List.find?_eq_none.1 h r hr
  | some r =>
    dsimp only
    have htear : Minds ks { s with registry := s.registry.remove x.task.id }
        ({ s with registry := s.registry.remove x.task.id }.tearDown r .failed) :=
      minds_of_same rfl rfl
    have hforget := htear.trans (minds_elim_forgetLoop _ r.loop)
    have hleft := (minds_remove s x.task.id).trans hforget
    have hfree' := fun r' hr' => hfree r' (hforget.registry r' hr')
    split
    · exact hleft.trans (minds_endLoop (.inl hfree'))
    · exact hleft.trans (minds_setLoop (.inl hfree'))

theorem minds_ran (hn : (s.loops.map (·.id)).Nodup) (hp : ∀ r ∈ s.registry, IsPolled ks s r)
    (hd : s.dropped = true → s.registry = []) (l : LoopId) (now : Nat) (ending : Ending Unit) :
    Minds ks s (s.ran l now ending).1 := by
  rcases ran_cases s l now ending with ⟨-, heq⟩ | ⟨x, hx, ⟨-, heq⟩ | ⟨error, -, heq⟩⟩
  · rw [heq]
    exact .refl s
  · rw [heq]
    exact minds_rest hn l now
  · obtain ⟨hmem, rfl⟩ := loop?_eq_some hx
    have hwarned : Minds ks s (s.warned error) := minds_of_same rfl rfl
    rw [heq]
    split
    · rename_i hdropped
      refine hwarned.trans (minds_endLoop (.inl fun r hr => ?_))
      rw [show (s.warned error).registry = [] from hd hdropped] at hr
      contradiction
    · exact hwarned.trans (minds_fail (s := s.warned error) hn hp hmem error)

theorem minds_reported (hn : (s.loops.map (·.id)).Nodup) (hp : ∀ r ∈ s.registry, IsPolled ks s r)
    (hl : ∃ x ∈ s.loops, x.id = l ∧ x.phase = .reporting) (poolName : String)
    (result : Except PoolError Unit) : Minds ks s (s.reported l poolName result) := by
  obtain ⟨x, hx, rfl, hreporting⟩ := hl
  have hfree : ∀ r ∈ s.registry, r.loop ≠ some x.id := fun r hr hl =>
    ((hp r hr).task hn hx hl).2 hreporting
  cases result with
  | ok _ => exact minds_endLoop (.inl hfree)
  | error e =>
    have hrecord : Minds ks s (s.record .error "Failed to submit task error callback."
        [("pool", .text poolName), ("error", .text e.message)]) := minds_of_same rfl rfl
    exact hrecord.trans (minds_endLoop (.inl hfree))

theorem minds_killLoop (hl : l ∈ ks) : Minds ks s (s.killLoop l) := by
  unfold killLoop
  split
  · exact .refl s
  · split
    · exact .refl s
    · exact minds_endLoop (.inr fun _ _ _ => .inr (.inr hl))

/-! ## Events -/

theorem minds_unregister (s : TaskSet κ ξ) (task : TaskRef) :
    Minds ks s (s.unregister task).1 := by
  unfold unregister
  split
  · exact .refl s
  · rename_i r _
    exact (minds_remove s task.id).trans
      (minds_retire { s with registry := s.registry.remove task.id } r .stopped)

theorem minds_abandon (s : TaskSet κ ξ) (c : CallId) : Minds ks s (s.abandon c) := by
  unfold abandon
  split
  · exact minds_of_same (goesOn_endCall s c).registry (loops_endCall s c)
  · exact .refl s

variable {h : List (SetOccurrence κ ξ)} {e : SetEvent κ ξ}

/-- An event that is no call's turn minds the loops. -/
theorem minds_of_perform (hs : Sound (begun h) s) (hall : allows h s e = true)
    (hc : e.caller? = none) (hkill : ∀ l, e = .killLoop l → l ∈ ks)
    (hd : s.dropped = true → s.registry = [])
    (hp : s.loops ≠ [] → ∀ r ∈ s.registry, IsPolled ks s r) : Minds ks s (s.perform e).1 := by
  cases e with
  | abandon c => exact minds_abandon s c
  | unregister task => exact minds_unregister s task
  | pollLoop l now => exact minds_pollLoop hs.loopIds l now
  | ran l now ending =>
    obtain ⟨x, hx, -⟩ := allows_ran.1 hall
    exact minds_ran hs.loopIds (hp (List.ne_nil_of_mem hx)) hd l now ending
  | reported l poolName result =>
    obtain ⟨x, hx, -⟩ := allows_reported.1 hall
    exact minds_reported hs.loopIds (hp (List.ne_nil_of_mem hx)) (allows_reported.1 hall) poolName
      result
  | killLoop l => exact minds_killLoop (hkill l rfl)
  | cancelRoot => exact minds_cancelRoot s
  | drop =>
    have hempty : (s.perform .drop).1.registry = [] := registry_drop s
    refine ⟨fun r hr => ?_, fun r hr => ?_⟩ <;> simp [hempty] at hr
  | _ => contradiction

/-! ## Loops that start -/

/-- The registration of that task gets a loop, and the others keep theirs. -/
theorem polled_startLoop {P : TaskId → Prop} (hn : (List.map (·.task.id) s.registry).Nodup)
    (hp : ∀ r ∈ s.registry, P r.task.id → IsPolled ks s r) (id : TaskId) :
    ∀ r ∈ (s.startLoop id).registry, P r.task.id ∨ r.task.id = id →
      IsPolled ks (s.startLoop id) r := by
  cases h : s.registry.lookup? id with
  | none =>
    have hsame : s.startLoop id = s := by simp [startLoop, h]
    rw [hsame]
    rintro r hr (hP | hid)
    · exact hp r hr hP
    · exact absurd hid (by simpa using List.find?_eq_none.1 h r hr)
  | some a =>
    have hmem := Registry.mem_of_lookup? h
    have hid := Registry.id_of_lookup? h
    rw [startLoop_eq h]
    intro r hr hP
    obtain ⟨b, hb, ⟨hb', rfl⟩ | ⟨hb', rfl⟩⟩ := Registry.mem_modify hr
    · obtain rfl := Registry.eq_of_id hn hb hmem (hb'.trans hid.symm)
      exact ⟨_, List.mem_append_right _ (List.mem_singleton_self _), rfl, rfl, rfl, by simp,
        by simp⟩
    · obtain ⟨x, hx, hl⟩ := hp r hb (hP.resolve_right hb')
      exact ⟨x, List.mem_append_left _ hx, hl⟩

theorem polled_startLoops (ids : List TaskId) : ∀ {s : TaskSet κ ξ} {P : TaskId → Prop},
    (List.map (·.task.id) s.registry).Nodup →
    (∀ r ∈ s.registry, P r.task.id → IsPolled ks s r) →
    ∀ r ∈ (ids.foldl startLoop s).registry, P r.task.id ∨ r.task.id ∈ ids →
      IsPolled ks (ids.foldl startLoop s) r := by
  induction ids with
  | nil => exact fun _ hp r hr hP => hp r hr (hP.resolve_right List.not_mem_nil)
  | cons id ids ih =>
    intro s P hn hp r hr hP
    have hn' : (List.map (·.task.id) (s.startLoop id).registry).Nodup := by
      rw [map_startLoop (fun _ _ _ => rfl) s id]
      exact hn
    refine ih (P := fun i => P i ∨ i = id) hn' (polled_startLoop hn hp id) r hr ?_
    rw [List.mem_cons, ← or_assoc] at hP
    exact hP

/-- What the start of a loop leaves alone of the registrations, the start of several does. -/
theorem map_startLoops {α : Type} {g : Registration κ ξ → α}
    (hg : ∀ (r : Registration κ ξ) (l : Option LoopId) (st : TaskState),
      g { r with loop := l, state := st } = g r) (ids : List TaskId) :
    ∀ s : TaskSet κ ξ, List.map g (ids.foldl startLoop s).registry = List.map g s.registry := by
  induction ids with
  | nil => exact fun _ => rfl
  | cons id ids ih => exact fun s => (ih _).trans (map_startLoop hg s id)

/-- Every registration has its loop when startup concludes. -/
theorem polled_launched (hn : (List.map (·.task.id) s.registry).Nodup) (c : CallId) (b : Bool) :
    ∀ r ∈ (s.launched c b).registry, IsPolled ks (s.launched c b) r := by
  intro r hr
  have hall : ∀ r ∈ (s.launched c b).registry, False ∨ r.task.id ∈ s.registry.tasks.map (·.id) →
      IsPolled ks (s.launched c b) r :=
    polled_startLoops _ (P := fun _ => False) hn fun _ _ h => h.elim
  have hid : r.task.id ∈ List.map (·.task.id) s.registry := by
    have htasks : List.map (·.task.id) (s.launched c b).registry =
        List.map (·.task.id) s.registry := map_startLoops (fun _ _ _ => rfl) _ _
    exact htasks ▸ List.mem_map_of_mem hr
  refine hall r hr (.inr ?_)
  rw [Registry.tasks, List.map_map]
  exact hid

/-- The loop of a registration that comes into a set that has started starts at once. -/
theorem enroll_of_started (hl : s.lifecycle = .started) (r : Registration κ ξ) (c : CallId) :
    (s.enroll r).without c = ((s.admitted r c).record .debug "Registered task."
      [("task", .text r.task.name)]).startLoop r.task.id := by
  unfold enroll
  dsimp only
  rw [if_pos (by simp [record, notify, hl]), startLoop_without]
  rfl

/-- A registration that comes into a set that has started has its loop at once. -/
theorem polled_enroll {c : CallId} (hn : (List.map (·.task.id) (s.admitted r c).registry).Nodup)
    (hl : s.lifecycle = .started) (hp : ∀ a ∈ s.registry, IsPolled ks s a) :
    ∀ a ∈ ((s.enroll r).without c).registry, IsPolled ks ((s.enroll r).without c) a := by
  rw [enroll_of_started hl]
  intro a ha
  refine polled_startLoop (s := (s.admitted r c).record .debug "Registered task."
    [("task", .text r.task.name)]) (P := fun i => i ≠ r.task.id) hn (fun b hb hne => ?_) r.task.id
    a ha (em' _)
  rcases Registry.mem_insert.1 hb with rfl | hb
  · exact absurd rfl hne
  · exact hp b hb

/-! ## Turns of calls -/

/-- Once the set has started, every registration has its loop. -/
def Tended (ks : List LoopId) (s : TaskSet κ ξ) : Prop :=
  s.lifecycle = .started → ∀ r ∈ s.registry, IsPolled ks s r

theorem Tended.alike {torn : List TaskRef} (h : Tended ks s) (ht : Alike torn s t) :
    Tended ks t := by
  intro hl
  have hs := h (ht.lifecycle ▸ hl)
  exact (minds_of_same ht.registry ht.loops).polled hs

theorem Takes.tended {c : CallId} {p : CallPhase κ ξ} {turn : CallTurn}
    (ht : Takes c s p t turn) (hs : Sound us s) (hp : ⟨c, p⟩ ∈ s.calls) (h : Tended ks s) :
    Tended ks t := by
  induction ht with
  | waits s p => exact h
  | alike ha _ ih => exact ih (hs.goesOn ha.goesOn) (ha.calls ▸ hp) (h.alike ha)
  | unqueues _ _ ih => exact ih ((Move.shifts hp .unqueue).sound hs) (mem_setPhase_self hp) h
  | @opens s t turn hpending _ ih =>
    have hp' : ⟨c, .opening⟩ ∈ ({ s with lifecycle := .starting } : TaskSet κ ξ).calls := hp
    exact ih ((Move.opens hp hpending).sound hs) (mem_setPhase_self hp') nofun
  | passes _ ht => exact Tended.alike (s := TaskSet.without _ c) h ht
  | fails _ ht => exact Tended.alike (s := TaskSet.without _ c) h ht
  | expires _ _ ht => exact Tended.alike (s := TaskSet.without _ c) h ht
  | prepares _ ht => exact Tended.alike (s := TaskSet.setPhase _ c _) h ht
  | starts b _ ht => exact Tended.alike (fun _ => polled_launched hs.tasks c b) ht
  | @givesUp s t current source ht =>
    refine Tended.alike (fun hl => ?_) ht
    have hl : (s.givenUp c).lifecycle = .started := hl
    unfold givenUp at hl
    split at hl
    · rename_i hterminated
      exact nomatch hterminated.symm.trans hl
    · contradiction
  | comesLate _ _ ht => exact Tended.alike (s := TaskSet.setPhase _ c _) h ht
  | refuses _ ht => exact Tended.alike (s := TaskSet.without _ c) h ht
  | @enrolls s t p r hphase hr ht =>
    have hreg : p.registration? = some r := by rcases hphase with ⟨rfl, -⟩ | rfl <;> rfl
    refine Tended.alike (fun hl => ?_) ht
    have hl' : s.lifecycle = .started := (enroll_same s r c).1.symm.trans hl
    exact polled_enroll (hs.admitted hp hreg hr).tasks hl' (h hl')
  | loses _ ht => exact Tended.alike (s := TaskSet.without _ c) h ht
  | demolishes ht =>
    refine Tended.alike (fun hl => ?_) ht
    exact nomatch (lifecycle_cleared _).symm.trans hl
  | drains ht =>
    refine Tended.alike (fun hl => ?_) ht
    exact nomatch (lifecycle_cleared _).symm.trans hl
  | ends ht => exact Tended.alike (s := TaskSet.without _ c) h ht

/-! ## Histories -/

/-- The loops that have been dropped. -/
def killed (h : List (SetOccurrence κ ξ)) : List LoopId :=
  h.filterMap fun o =>
    match o.event with
    | .killLoop l => some l
    | _ => none

/-- Nothing is registered in a set that has been dropped, and no call is in progress. -/
def Emptied (s : TaskSet κ ξ) : Prop := s.dropped = true → s.registry = [] ∧ s.calls = []

theorem Move.emptied {d : Option Deed} (hm : Move s d t) (hs : Emptied s) : Emptied t := by
  have hbusy : ∀ {x : Call κ ξ}, x ∈ s.calls → t.dropped = s.dropped → Emptied t := by
    intro x hx hsame hd
    have hnone := (hs (hsame ▸ hd)).2
    simp [hnone] at hx
  have hfewer : ∀ {torn : List TaskRef} {id : TaskId},
      GoesOn torn { s with registry := s.registry.remove id } t → Emptied t := by
    intro torn id h hd
    obtain ⟨hreg, hcalls⟩ := hs (h.dropped ▸ hd)
    exact ⟨by rw [h.registry, hreg]; rfl, h.calls.trans hcalls⟩
  cases hm with
  | goesOn h =>
    intro hd
    rw [h.registry, h.calls]
    exact hs (h.dropped ▸ hd)
  | shifts hc _ => exact hbusy hc rfl
  | opens hc _ => exact hbusy hc rfl
  | marks id =>
    intro hd
    obtain ⟨hreg, hcalls⟩ := hs hd
    exact ⟨by simp [hreg, Registry.modify], hcalls⟩
  | finishes c =>
    intro hd
    obtain ⟨hreg, hcalls⟩ := hs hd
    exact ⟨hreg, by simp [without, hcalls]⟩
  | @starts c b hc _ =>
    have hdesk := desk_foldl desk_startLoop (s.registry.tasks.map (·.id))
      (({ s with lifecycle := .started, isRooted := true, rootCancelled := b } :
        TaskSet κ ξ).without c)
    exact hbusy hc (congrArg TaskSet.dropped hdesk :)
  | givesUp hc _ => exact hbusy hc rfl
  | comesLate hc _ => exact hbusy hc rfl
  | prepares hc _ => exact hbusy hc rfl
  | enrolls hc _ _ => exact hbusy hc (congrArg (·.dropped) (desk_enroll s _))
  | refuses hc h => exact hbusy hc h.dropped
  | removes _ _ _ _ h _ => exact hfewer h
  | displaces _ _ _ h => exact hfewer h
  | demolishes h _ => exact fun hd => ⟨h.registry, h.calls.trans (hs (h.dropped ▸ hd)).2⟩
  | drops hcalls h _ => exact fun _ => ⟨h.registry, h.calls.trans hcalls⟩

theorem emptied_of_run (hrun : (setSystem κ ξ).Run h s) : Emptied s := by
  induction hrun with
  | start hstart =>
    obtain ⟨name, pool, rfl⟩ := hstart
    exact fun _ => ⟨rfl, rfl⟩
  | @next h s e hrun hall ih =>
    obtain ⟨d, hcourse, -⟩ := course_of_perform (sound_of_run hrun) hall
    refine hcourse.keeps (P := Emptied) Move.emptied ?_
    cases e with
    | begin c request b =>
      have hall : allows h s (.begin c request b) = true := hall
      have hopen := (allows_begin.1 hall).1
      exact fun hd => nomatch hopen.symm.trans hd
    | _ => exact ih

theorem tended_of_run (hrun : (setSystem κ ξ).Run h s) : Tended (killed h) s := by
  induction hrun with
  | start hstart =>
    obtain ⟨name, pool, rfl⟩ := hstart
    exact nofun
  | @next h s e hrun hall ih =>
    have hs := sound_of_run hrun
    have hmore : ∀ l ∈ killed h, l ∈ killed (h ++ [⟨s, e⟩]) := fun l hl => by
      rw [killed, List.filterMap_append]
      exact List.mem_append_left _ hl
    have ih : Tended (killed (h ++ [⟨s, e⟩])) s := fun hl r hr => (ih hl r hr).mono hmore
    have hnext : Tended (killed (h ++ [⟨s, e⟩])) (s.perform e).1 := by
      cases hc : e.caller? with
      | some c =>
        obtain ⟨turn, -, hgives⟩ := gives_of_perform hs hall hc
        have hentered := hs.entered hall
        generalize (s.perform e).1 = t at hgives
        cases hgives with
        | begins ht =>
          exact ht.tended hentered (mem_addCall_self _ _ _) ih
        | polls hp ht => exact ht.tended hs hp ih
        | comesBack hp ht =>
          exact ht.tended ((Move.shifts hp (.comeBack _)).sound hs) (mem_setPhase_self hp) ih
        | breaks _ ht => exact Tended.alike (s := s.without _) ih ht
        | @goesOn d current rest b _ _ hp ht =>
          have hmove := Move.shifts (s := s.marked current.task.id) hp (.goOn current rest)
          refine ht.tended (hmove.sound (hs.marks current.task.id))
            (mem_setPhase_self (s := s.marked current.task.id) hp) fun hl => ?_
          -- startup is under way, so the set has not started
          have hl : s.lifecycle = .started := hl
          have hstarting := hs.starting _ hp rfl
          simp [hl] at hstarting
        | aborts hp ht =>
          exact ht.tended ((Move.shifts hp (.abort _ _ _)).sound hs) (mem_setPhase_self hp) ih
        | misses _ _ => exact ih
      | none =>
        intro hl
        have hl' : s.lifecycle = .started := (wanes_of_perform hs hall hc).lifecycle ▸ hl
        refine (minds_of_perform hs hall hc (fun l he => ?_) (fun hd => (emptied_of_run hrun hd).1)
          fun _ => ih hl').polled (ih hl')
        simp [killed, he]
    exact hnext

end TaskSet

end Overseer
