import Overseer.Proofs.Supervision.Startup

/-!
# A failed startup stays failed

No loop exists before a startup concludes (`Unstarted`), and in a set whose startup has failed none
ever will. Who calls `init` later hears of the failure, or that the set is terminated, and which of
them it is depends on whether a destroy call has begun its work (`Demolishes`). What is registered
stays so until it is unregistered, destroyed or dropped (`Keeps`).

`failure_is_final` puts this together with the ledger of the startup that has failed.
-/

namespace Overseer

variable {κ ξ : Type}

namespace TaskSet

variable {s t : TaskSet κ ξ} {us : List CallId} {c : CallId} {k : CallId} {p : CallPhase κ ξ}
  {turn : CallTurn} {h pre post : List (SetOccurrence κ ξ)} {o : SetOccurrence κ ξ}
  {e : SetEvent κ ξ} {now : Nat}

/-! ## Before a startup concludes -/

/-- The set has not started, and there is no loop. -/
structure Unstarted (s : TaskSet κ ξ) : Prop where
  lifecycle : s.lifecycle ≠ .started
  loops : s.loops = []

theorem unstarted_of_loops (hs : Unstarted s) (hl : t.lifecycle ≠ .started)
    (h : ∀ y ∈ t.loops, ∃ x ∈ s.loops, y.Follows x) : Unstarted t := by
  refine ⟨hl, List.eq_nil_iff_forall_not_mem.2 fun y hy => ?_⟩
  obtain ⟨x, hx, -⟩ := h y hy
  simp [hs.loops] at hx

theorem Unstarted.goesOn {torn : List TaskRef} (hs : Unstarted s) (h : GoesOn torn s t) :
    Unstarted t := unstarted_of_loops hs (h.lifecycle.trans_ne hs.lifecycle) h.loops

/-- Loops start only when startup concludes, and then it is over. -/
theorem Move.unstarted {d : Option Deed} (hm : Move s d t) (hsound : Sound us s)
    (hs : Unstarted s) :
    Unstarted t ∨ IsOver t ∧ ∃ x ∈ s.calls, x.phase.isStartup = true := by
  cases hm with
  | goesOn h => exact .inl (hs.goesOn h)
  | opens _ _ => exact .inl ⟨by simp [setPhase], hs.loops⟩
  | starts b hc _ =>
    obtain ⟨hl, hcalls, -⟩ := startLoops_same (s.registry.tasks.map (·.id))
      ({ s with lifecycle := .started, isRooted := true, rootCancelled := b }.without _)
    refine .inr ⟨⟨?_, ?_⟩, _, hc, rfl⟩
    · rw [hl]
      simp [without]
    · rw [hcalls]
      exact hsound.not_isStartup_without hc rfl
  | givesUp _ _ => exact .inl ⟨by simp [without], hs.loops⟩
  | @enrolls c p r _ _ _ =>
    obtain ⟨u, hgo, heq⟩ := enroll_without s r c
    rw [heq, if_neg hs.lifecycle]
    exact .inl (Unstarted.goesOn (s := s.admitted r c) ⟨hs.lifecycle, hs.loops⟩ hgo)
  | refuses _ h => exact .inl (Unstarted.goesOn (s := s.without _) ⟨hs.lifecycle, hs.loops⟩ h)
  | removes _ id _ _ h _ =>
    exact .inl (Unstarted.goesOn (s := { s with registry := s.registry.remove id })
      ⟨hs.lifecycle, hs.loops⟩ h)
  | displaces id _ _ h =>
    exact .inl (Unstarted.goesOn (s := { s with registry := s.registry.remove id })
      ⟨hs.lifecycle, hs.loops⟩ h)
  | demolishes h _ => exact .inl (unstarted_of_loops hs (by simp [h.lifecycle]) h.loops)
  | drops _ h _ =>
    exact .inl (unstarted_of_loops hs (h.lifecycle.trans_ne hs.lifecycle) h.loops)
  | _ => exact .inl ⟨hs.lifecycle, hs.loops⟩

theorem unstarted_of_run (hrun : (setSystem κ ξ).Run h s) : Unstarted s ∨ IsOver s := by
  induction hrun with
  | start hstart =>
    obtain ⟨name, pool, rfl⟩ := hstart
    exact .inl ⟨nofun, rfl⟩
  | @next h s e hrun hall ih =>
    have hs := sound_of_run hrun
    obtain ⟨d, hcourse, -⟩ := course_of_perform hs hall
    have hnext : Unstarted (s.perform e).1 ∨ IsOver (s.perform e).1 := by
      rcases ih with hun | hover
      · refine hcourse.keepsSound (P := fun s => Unstarted s ∨ IsOver s) (fun hm hs hp => ?_)
          (hs.entered hall) (.inl ⟨(lifecycle_entered s e).trans_ne hun.lifecycle, ?_⟩)
        · rcases hp with hun | hover
          · exact (hm.unstarted hs hun).imp_right And.left
          · exact .inr (hm.over hover).1
        · cases e <;> exact hun.loops
      · exact .inr (hover.perform hs hall).1
    exact hnext.imp (fun hun => ⟨hun.lifecycle, hun.loops⟩) IsOver.collect

/-- Nothing is run without a loop. -/
theorem not_run_of_loops (hl : s.loops = []) (hall : allows h s e = true) (task : TaskRef) :
    (s.perform e).2 ≠ .loop (.run task) := by
  cases e with
  | pollLoop l now => simp [perform, pollLoop, loop?, hl]
  | ran l now ending =>
    obtain ⟨x, hx, -⟩ := allows_ran.1 hall
    simp [hl] at hx
  | _ => simp [perform]

/-! ## What only a destroy call does -/

/-- A destroy call that has waited for the lifecycle lock does its work. -/
def Demolishes (o : SetOccurrence κ ξ) : Prop :=
  ∃ d, o.event.caller? = some d ∧ ⟨d, .demolishing⟩ ∈ (o.before.entered o.event).calls ∧
    ⟨d, .demolishing⟩ ∉ ((setSystem κ ξ).after o).calls

/-- Nobody has left, and the set has not been terminated. -/
structure Retains (s t : TaskSet κ ξ) : Prop where
  tickets : ∀ k ∈ s.tickets, k ∈ t.tickets
  terminated : t.lifecycle = .terminated → s.lifecycle = .terminated

theorem Alike.retains {torn : List TaskRef} (h : Alike torn s t) : Retains s t :=
  ⟨fun _ hk => h.tickets ▸ hk, fun hl => h.lifecycle ▸ hl⟩

theorem Retains.trans {u : TaskSet κ ξ} (h : Retains s t) (h' : Retains t u) : Retains s u :=
  ⟨fun k hk => h'.tickets k (h.tickets k hk), fun hl => h.terminated (h'.terminated hl)⟩

/-- A turn retains everybody unless it is that of a destroy call that does its work. -/
theorem Takes.retains (ht : Takes c s p t turn) :
    Retains s t ∨ p = .demolishing ∧ ⟨c, .demolishing⟩ ∉ t.calls := by
  induction ht with
  | waits s p => exact .inl (Alike.refl s).retains
  | alike hs _ ih => exact ih.imp_left hs.retains.trans
  | unqueues _ _ ih =>
    rcases ih with ih | ⟨hp, -⟩
    · exact .inl ⟨ih.tickets, ih.terminated⟩
    · contradiction
  | @opens s t turn _ _ ih =>
    rcases ih with ih | ⟨hp, -⟩
    · refine .inl ⟨ih.tickets, fun hl => ?_⟩
      cases ih.terminated hl
    · cases hes : s.registry.schedule <;> simp [hes, CallPhase.before] at hp
  | passes _ ht => exact .inl ⟨ht.retains.tickets, ht.retains.terminated⟩
  | fails _ ht => exact .inl ⟨ht.retains.tickets, ht.retains.terminated⟩
  | expires _ _ ht => exact .inl ⟨ht.retains.tickets, ht.retains.terminated⟩
  | prepares _ ht => exact .inl ⟨ht.retains.tickets, ht.retains.terminated⟩
  | @starts s t b _ ht =>
    obtain ⟨hl, -, hstays, -⟩ := startLoops_same (s.registry.tasks.map (·.id))
      ({ s with lifecycle := .started, isRooted := true, rootCancelled := b }.without c)
    refine .inl ⟨fun k hk => ht.retains.tickets k ?_, fun hl' => ?_⟩
    · rw [launched, tickets_of_stays hstays]
      exact hk
    · cases hl.symm.trans (ht.retains.terminated hl')
  | @givesUp s t current source ht =>
    refine .inl ⟨fun k hk => ht.retains.tickets k ?_, fun hl => ?_⟩
    · unfold givenUp
      split <;> exact hk
    · have hl' := ht.retains.terminated hl
      by_contra hno
      simp [givenUp, hno, without] at hl'
  | comesLate _ _ ht => exact .inl ⟨ht.retains.tickets, ht.retains.terminated⟩
  | refuses _ ht => exact .inl ⟨ht.retains.tickets, ht.retains.terminated⟩
  | enrolls _ _ ht =>
    obtain ⟨hl, -, -, htickets⟩ := enroll_same _ _ _
    exact .inl ⟨fun k hk => ht.retains.tickets k ((htickets k).2 (.inr hk)),
      fun hl' => hl.symm.trans (ht.retains.terminated hl')⟩
  | loses _ ht => exact .inl ⟨ht.retains.tickets, ht.retains.terminated⟩
  | demolishes ht => exact .inr ⟨rfl, fun hq => not_mem_over (P := fun _ => False) ht _ hq⟩
  | drains ht =>
    refine .inr ⟨rfl, fun hq => ?_⟩
    rw [ht.calls] at hq
    cases phase_of_mem_setPhase hq
  | ends ht => exact .inl ⟨ht.retains.tickets, ht.retains.terminated⟩

/-- A destroy call waits, or it has done its work. -/
theorem Takes.demolishing (ht : Takes c s p t turn) (hp : p = .demolishing)
    (hc : ⟨c, .demolishing⟩ ∈ s.calls) :
    ⟨c, .demolishing⟩ ∈ t.calls ∨ t.lifecycle = .terminated := by
  induction ht with
  | waits s p => exact .inl hc
  | alike hs _ ih => exact ih hp (hs.calls ▸ hc)
  | expires _ hk _ => exact nomatch (hp ▸ hk :)
  | enrolls hp' _ _ =>
    rcases hp' with ⟨rfl, -⟩ | rfl
    · contradiction
    · contradiction
  | demolishes ht => exact .inr (ht.lifecycle.trans (lifecycle_cleared _))
  | drains ht => exact .inr (ht.lifecycle.trans (lifecycle_cleared _))
  | _ => contradiction

/-- A call's turn retains everybody, or it is that of a destroy call that does its work. -/
theorem retains_of_caller (hs : Sound (begun h) s) (hall : allows h s e = true)
    (hc : e.caller? = some c) : Retains s (s.perform e).1 ∨ Demolishes ⟨s, e⟩ := by
  obtain ⟨turn, -, hgives⟩ := gives_of_perform hs hall hc
  have hwork : ⟨c, .demolishing⟩ ∈ (s.entered e).calls → ⟨c, .demolishing⟩ ∉ (s.perform e).1.calls →
      Demolishes ⟨s, e⟩ := fun hp hq => ⟨c, hc, hp, hq⟩
  generalize (s.perform e).1 = t at hgives hwork
  cases hgives with
  | @begins d request b _ _ ht =>
    obtain rfl := Option.some.inj hc
    rcases ht.retains with hretains | ⟨hp, hq⟩
    · exact .inl ⟨hretains.tickets, hretains.terminated⟩
    · refine .inr (hwork (List.mem_append_right _ ?_) hq)
      exact List.mem_singleton.2 (by rw [hp])
  | @polls d p b _ _ hp ht =>
    obtain rfl := Option.some.inj hc
    exact ht.retains.imp_right fun ⟨hphase, hq⟩ => hwork (hphase ▸ hp) hq
  | comesBack _ ht =>
    rcases ht.retains with hretains | ⟨hp, -⟩
    · exact .inl ⟨hretains.tickets, hretains.terminated⟩
    · contradiction
  | breaks _ ht => exact .inl ⟨ht.retains.tickets, ht.retains.terminated⟩
  | @goesOn d current rest b _ _ _ ht =>
    rcases ht.retains with hretains | ⟨hp, -⟩
    · have hmarks := tickets_of_stays (Move.marks s current.task.id).quiet.1
      exact .inl ⟨fun k hk => hretains.tickets k (hmarks.symm ▸ hk), hretains.terminated⟩
    · cases rest <;> simp [CallPhase.before] at hp
  | aborts _ ht =>
    rcases ht.retains with hretains | ⟨hp, -⟩
    · exact .inl ⟨hretains.tickets, hretains.terminated⟩
    · contradiction
  | misses _ _ => exact .inl (Alike.refl s).retains

/-- A destroy call that does its work terminates the set. -/
theorem Demolishes.terminated (hrun : (setSystem κ ξ).Run h s) (hall : allows h s e = true)
    (hd : Demolishes ⟨s, e⟩) : (s.perform e).1.lifecycle = .terminated := by
  obtain ⟨c, hc, hp, hq⟩ := hd
  have hc : e.caller? = some c := hc
  have hp : ⟨c, .demolishing⟩ ∈ (s.entered e).calls := hp
  have hq : ⟨c, .demolishing⟩ ∉ (s.perform e).1.calls := hq
  have hs := sound_of_run hrun
  have ho := orderly_of_run hrun
  obtain ⟨turn, -, hgives⟩ := gives_of_perform hs hall hc
  have hturn : ∀ {u : TaskSet κ ξ}, Takes c u .demolishing (s.perform e).1 turn →
      ⟨c, .demolishing⟩ ∈ u.calls → (s.perform e).1.lifecycle = .terminated := fun ht hmem =>
    (ht.demolishing rfl hmem).resolve_left hq
  generalize (s.perform e).1 = t at hgives hturn hq
  cases hgives with
  | @begins d request b _ _ ht =>
    obtain rfl := Option.some.inj hc
    have hphase : request.phase d = .demolishing := by
      rcases List.mem_append.1 hp with hp | hp
      · exact absurd (hs.calls _ hp) (allows_begin.1 hall).2
      · exact (Call.mk.inj (List.mem_singleton.1 hp)).2.symm
    rw [hphase] at ht
    exact hturn ht (mem_addCall_self _ _ _)
  | @polls d p b _ _ hp' ht =>
    obtain rfl := Option.some.inj hc
    obtain rfl := ho.phase_eq hp' hp
    exact hturn ht hp'
  | comesBack hp' _ =>
    obtain rfl := Option.some.inj hc
    exact nomatch ho.phase_eq hp' hp
  | breaks hp' _ =>
    obtain rfl := Option.some.inj hc
    exact nomatch ho.phase_eq hp' hp
  | goesOn hp' _ =>
    obtain rfl := Option.some.inj hc
    exact nomatch ho.phase_eq hp' hp
  | aborts hp' _ =>
    obtain rfl := Option.some.inj hc
    exact nomatch ho.phase_eq hp' hp
  | misses hno _ =>
    refine absurd ?_ hq
    cases e with
    | begin d request b => contradiction
    | _ => exact hp

/-- A set is terminated exactly if a destroy call has done its work. -/
theorem terminated_iff (hrun : (setSystem κ ξ).Run h s) :
    s.lifecycle = .terminated ↔ ∃ o ∈ h, Demolishes o := by
  induction hrun with
  | start hstart =>
    obtain ⟨name, pool, rfl⟩ := hstart
    simp
  | @next h s e hrun hall ih =>
    have hs := sound_of_run hrun
    constructor
    · intro hl
      have hl : (s.perform e).1.lifecycle = .terminated := hl
      have hcase : s.lifecycle = .terminated ∨ Demolishes ⟨s, e⟩ := by
        cases hc : e.caller? with
        | none => exact .inl ((wanes_of_perform hs hall hc).lifecycle.symm.trans hl)
        | some c => exact (retains_of_caller hs hall hc).imp_left fun hkept => hkept.terminated hl
      rcases hcase with hold | hnew
      · obtain ⟨o, ho, hd⟩ := ih.1 hold
        exact ⟨o, List.mem_append_left _ ho, hd⟩
      · exact ⟨_, List.mem_append_right _ (List.mem_singleton_self _), hnew⟩
    · rintro ⟨o, ho, hd⟩
      show (s.perform e).1.lifecycle = .terminated
      rcases List.mem_append.1 ho with ho | ho
      · obtain ⟨d, hcourse, -⟩ := course_of_perform hs hall
        exact hcourse.terminated ((lifecycle_entered s e).trans (ih.2 ⟨o, ho, hd⟩))
      · obtain rfl := List.mem_singleton.1 ho
        exact hd.terminated hrun hall

/-! ## Sets whose startup has failed -/

/-- Startup has failed, and no loop has ever been started. -/
structure HasFailed (s : TaskSet κ ξ) : Prop where
  isOver : IsOver s
  unstarted : Unstarted s
  lifecycle : s.lifecycle = .aborted ∨ s.lifecycle = .terminated

theorem HasFailed.collect (hf : HasFailed s) : HasFailed s.collect.2 :=
  ⟨hf.isOver.collect, ⟨hf.unstarted.lifecycle, hf.unstarted.loops⟩, hf.lifecycle⟩

theorem HasFailed.perform (hf : HasFailed s) (hs : Sound (begun h) s)
    (hall : allows h s e = true) : HasFailed (s.perform e).1 := by
  obtain ⟨d, hcourse, -⟩ := course_of_perform hs hall
  have hentered : IsOver (s.entered e) ∧ Unstarted (s.entered e) := by
    refine ⟨⟨(lifecycle_entered s e).trans_ne hf.isOver.opened, fun x hx => ?_⟩,
      ⟨(lifecycle_entered s e).trans_ne hf.unstarted.lifecycle, ?_⟩⟩
    · rcases mem_entered hx with hx | ⟨c, request, b, -, rfl⟩
      · exact hf.isOver.none x hx
      · cases request <;> rfl
    · cases e <;> exact hf.unstarted.loops
  obtain ⟨hover, hl⟩ := hf.isOver.perform hs hall
  refine ⟨hover, ?_, ?_⟩
  · refine (hcourse.keepsSound (P := fun s => IsOver s ∧ Unstarted s) (fun hm hs hp => ?_)
      (hs.entered hall) hentered).2
    obtain ⟨hover, hun⟩ := hp
    refine ⟨(hm.over hover).1, (hm.unstarted hs hun).resolve_right ?_⟩
    rintro ⟨-, x, hx, hst⟩
    simp [hover.none x hx] at hst
  · rcases hl with hl | hl
    · exact hf.lifecycle.imp hl.trans hl.trans
    · exact .inr hl

/-- A startup that begins too late hears why. -/
theorem Takes.late {result : Except SupervisionError Unit} (ht : Takes c s p t turn)
    (hk : p.kind = .init) (hp : p.isStartup = false)
    (hl : s.lifecycle = .aborted ∨ s.lifecycle = .terminated) (hret : turn = .returned result) :
    s.lifecycle = .aborted ∧ result = .error .initAborted ∨
      s.lifecycle = .terminated ∧ result = .error .terminated := by
  induction ht with
  | waits s p => contradiction
  | alike hs _ ih =>
    rw [← hs.lifecycle] at hl ⊢
    exact ih hk hp hl hret
  | unqueues _ _ ih => exact ih rfl rfl hl hret
  | opens hpending _ _ => simp [hpending] at hl
  | passes hst _ => rcases hst with hst | hst <;> simp [hst] at hl
  | fails hst _ => exact .inl ⟨hst, (CallTurn.returned.inj hret).symm⟩
  | expires hst _ _ => exact .inr ⟨hst, (CallTurn.returned.inj hret).symm⟩
  | enrolls hp' _ _ => rcases hp' with ⟨rfl, -⟩ | rfl <;> contradiction
  | _ => contradiction

/-- A startup that returns in a set whose startup has failed hears of it, or that the set is
terminated. -/
theorem HasFailed.refuses (hf : HasFailed s) (hrun : (setSystem κ ξ).Run h s)
    (hall : allows h s e = true) (hbegan : Began (h ++ [⟨s, e⟩]) c .init)
    {result : Except SupervisionError Unit} (hret : Returns ⟨s, e⟩ c result) :
    s.lifecycle = .aborted ∧ result = .error .initAborted ∨
      s.lifecycle = .terminated ∧ result = .error .terminated := by
  obtain ⟨hc, hanswer⟩ := hret
  have hold : ∀ {p : CallPhase κ ξ}, ⟨c, p⟩ ∈ s.calls → p.kind = .init :=
    kind_of_began hrun hall hbegan
  obtain ⟨turn, hturn, hgives⟩ := gives_of_perform (sound_of_run hrun) hall hc
  have hreturned : turn = .returned result := SetAnswer.call.inj (hturn.symm.trans hanswer)
  generalize (s.perform e).1 = t at hgives
  cases hgives with
  | @begins d request b _ _ ht =>
    obtain rfl := Option.some.inj hc
    have hkind : request.kind = .init := kind_of_begin hrun hall hbegan
    refine ht.late ((request.kind_phase d).trans hkind) ?_ hf.lifecycle hreturned
    cases request <;> rfl
  | polls hp ht =>
    obtain rfl := Option.some.inj hc
    exact ht.late (hold hp) (hf.isOver.none _ hp) hf.lifecycle hreturned
  | comesBack hp _ =>
    obtain rfl := Option.some.inj hc
    cases hold hp
  | breaks hp _ =>
    obtain rfl := Option.some.inj hc
    cases hold hp
  | goesOn hp _ => exact nomatch hf.isOver.none _ hp
  | aborts hp _ => exact nomatch hf.isOver.none _ hp
  | misses _ _ => contradiction

/-- When nothing can go on in a set whose startup has failed, every call in progress waits for the
`init` of a task of its own. -/
theorem HasFailed.still (hf : HasFailed s) (ho : Orderly s) (hstill : IsStill s now) :
    ∀ x ∈ s.calls, ∃ r, x.phase = .initializing r := by
  -- who has the lifecycle lock of a still set waits for loops, and there is none
  have hfree : ∀ c, ¬s.Wants CallPhase.wantsLifecycle c := by
    intro c hwants
    obtain ⟨d, -, -, hloops⟩ := hstill.draining ho hwants
    simp [isQuiet, hf.unstarted.loops] at hloops
  have hwaits : ∀ {c : CallId} {p : CallPhase κ ξ}, ⟨c, p⟩ ∈ s.calls →
      p = .queued ∨ ∃ r, p = .initializing r := by
    intro c p hc
    have hno : p.wantsLifecycle = false := Bool.eq_false_iff.2 fun hw => hfree c ⟨p, hc, hw⟩
    have hst := hf.isOver.none _ hc
    cases p with
    | queued => exact .inl rfl
    | initializing r => exact .inr ⟨r, rfl⟩
    | preparing current rest => contradiction
    | _ => contradiction
  rintro ⟨c, p⟩ hc
  refine (hwaits hc).resolve_left fun hqueued => ?_
  obtain ⟨d, hheld, q, hq, hw⟩ := ho.startup.held ⟨p, hc, by rw [hqueued]; rfl⟩
  rcases hwaits hq with rfl | ⟨r, rfl⟩
  · have hstuck := not_canGoOn_of_poll ho (ho.call?_of_mem hq) (hstill.calls d false)
    simp [canGoOn, Lock.isHeldBy, hheld] at hstuck
  · contradiction

/-- Who is registered stays so, unless the task is unregistered, or the set destroyed or
dropped. -/
def Keeps (o : SetOccurrence κ ξ) : Prop :=
  ∀ k ∈ o.before.tickets, k ∉ ((setSystem κ ξ).after o).tickets →
    (∃ task, o.event = .unregister task ∧
      (o.before.registry.lookup? task.id).map (·.ticket) = some k) ∨
    Demolishes o ∨ o.event = .drop

theorem keeps_of_loops (hs : Sound (begun h) s) (hl : s.loops = [])
    (hall : allows h s e = true) : Keeps ⟨s, e⟩ := by
  intro k hk hk'
  have hk' : k ∉ (s.perform e).1.tickets := hk'
  cases hc : e.caller? with
  | some c =>
    rcases retains_of_caller hs hall hc with hretains | hd
    · exact absurd (hretains.tickets k hk) hk'
    · exact .inr (.inl hd)
  | none =>
    have hgo : ∀ {torn : List TaskRef}, ¬GoesOn torn s (s.perform e).1 := fun hgo =>
      hk' (hgo.tickets ▸ hk)
    cases e with
    | abandon c =>
      refine absurd ?_ hk'
      show k ∈ (s.abandon c).tickets
      unfold abandon
      split
      · rw [(alike_endCall s c).tickets]
        exact hk
      · exact hk
    | unregister task => exact .inl ⟨task, rfl, (departs_unregister hs task).1 ⟨hk, hk'⟩⟩
    | pollLoop l now => exact absurd (goesOn_pollLoop hs l now) hgo
    | ran l now ending =>
      obtain ⟨x, hx, -⟩ := allows_ran.1 hall
      simp [hl] at hx
    | reported l poolName result => exact absurd (goesOn_reported s l poolName result) hgo
    | killLoop l => exact absurd (goesOn_killLoop s l) hgo
    | cancelRoot => exact absurd (goesOn_cancelRoot s) hgo
    | drop => exact .inr (.inr rfl)
    | _ => contradiction

/-! ## Histories -/

/-- While a startup is in progress, no loop has ever been started. -/
theorem unstarted_before (hrun : (setSystem κ ξ).Run h s) {x : Call κ ξ} (hx : x ∈ s.calls)
    (hst : x.phase.isStartup = true) : Unstarted s ∧ ∀ o ∈ h, Unstarted o.before := by
  have hnot : ¬IsOver s := fun hover => by simp [hover.none x hx] at hst
  refine ⟨(unstarted_of_run hrun).resolve_right hnot, fun o ho => ?_⟩
  obtain ⟨pre, post, heq⟩ := List.append_of_mem ho
  obtain ⟨hpre, hall, -⟩ := hrun.split heq
  refine (unstarted_of_run hpre).resolve_right fun hover => hnot ?_
  exact over_of_run hrun heq (hover.perform (sound_of_run hpre) hall).1.collect

/-- The turn in which a startup fails. -/
theorem failed_of_returned (hrun : (setSystem κ ξ).Run h s) (hall : allows h s e = true)
    (hbegan : Began (h ++ [⟨s, e⟩]) c .init) {name : String} {source : Fault}
    (hret : Returns ⟨s, e⟩ c (.error (.initFailed name source))) :
    (Unstarted s ∧ ∀ o ∈ h, Unstarted o.before) ∧ HasFailed (s.perform e).1 := by
  obtain ⟨hcollapses, p, current, -, hp, hphase⟩ := failing_of_returned hrun hall hbegan hret
  have hst : p.isStartup = true := by
    rcases hphase with ⟨rfl, -⟩ | ⟨rest, rfl, -⟩ <;> rfl
  have hbefore := unstarted_before hrun hp hst
  have hl := hcollapses.lifecycle
  refine ⟨hbefore, ⟨fun hno => by simp [hno] at hl, fun x hx => ?_⟩,
    ⟨fun hno => by simp [hno] at hl, hcollapses.loops.trans hbefore.1.loops⟩, hl⟩
  -- another startup would have been in progress beside the one that has failed
  refine Bool.eq_false_iff.2 fun hx' => ?_
  have hs := sound_of_run hrun
  have hne : x.id ≠ c := by
    rintro rfl
    exact hcollapses.gone _ hx
  have hx := mem_calls_of_other hs hall hx fun hc => hne (Option.some.inj (hc.symm.trans hret.1))
  exact hne (hs.single x hx _ hp hx' hst)

theorem failed_of_run (hrun : (setSystem κ ξ).Run h s) (heq : h = pre ++ o :: post)
    (hbegan : Began (pre ++ [o]) c .init) {name : String} {source : Fault}
    (hret : Returns o c (.error (.initFailed name source))) : HasFailed s := by
  obtain ⟨hpre, hall, -⟩ := hrun.split heq
  refine hrun.since (P := fun _ s => HasFailed s) ?_ (fun _ s e hrun hall hf => ?_) heq
  · exact (failed_of_returned hpre hall hbegan hret).2.collect
  · exact (hf.perform (sound_of_run hrun) hall).collect

/-- A startup that fails names the first task in the order of its snapshot whose `init` has
failed, and it has initialized the tasks up to that one, in order, and no other. No task of the set
is ever run. Later startups hear of the failure as long as no destroy call has done its work, and
from then on that the set is terminated; when nothing can go on, none of them is in progress. From
the failure on, who is registered stays so until the task is unregistered, or the set destroyed or
dropped. -/
theorem failure_is_final (hrun : (setSystem κ ξ).Run h s) (heq : h = pre ++ o :: post)
    (hbegan : Began (pre ++ [o]) c .init) {name : String} {source : Fault}
    (hret : Returns o c (.error (.initFailed name source))) :
    (∃ done current rest, Snapshot pre c (done ++ current :: rest) ∧ name = current.task.name ∧
      initsBy c h = (done ++ [current]).map (·.ticket) ∧
      outcomesFor c h = done.map (·.success) ++ [(current.ticket, .error source)]) ∧
    (∀ o' ∈ h, ∀ task, (o'.before.perform o'.event).2 ≠ .loop (.run task)) ∧
    (∀ mid o' rest, post = mid ++ o' :: rest → ∀ d result, Began h d .init →
      Returns o' d result →
        result = .error .initAborted ∧ (∀ o'' ∈ pre ++ o :: mid, ¬Demolishes o'') ∨
        result = .error .terminated ∧ ∃ o'' ∈ pre ++ o :: mid, Demolishes o'') ∧
    (∀ now, IsStill s now → ∀ x ∈ s.calls, ∃ r, x.phase = .initializing r) ∧
    ∀ o' ∈ o :: post, Keeps o' := by
  obtain ⟨hpre, hall, -⟩ := hrun.split heq
  obtain ⟨hbefore, -⟩ := failed_of_returned hpre hall hbegan hret
  -- a set whose startup has failed, at each later occurrence
  have hlater : ∀ {mid o' rest}, post = mid ++ o' :: rest →
      (setSystem κ ξ).Run (pre ++ o :: mid) o'.before ∧
        allows (pre ++ o :: mid) o'.before o'.event = true ∧ HasFailed o'.before := by
    rintro mid o' rest rfl
    have heq' : h = (pre ++ o :: mid) ++ o' :: rest := by simpa using heq
    obtain ⟨hmid, hall', -⟩ := hrun.split heq'
    exact ⟨hmid, hall', failed_of_run hmid rfl hbegan hret⟩
  refine ⟨ledger_of_failed hrun heq hbegan hret, fun o' ho' => ?_, ?_, fun now hstill => ?_,
    fun o' ho' => ?_⟩
  · rw [heq] at ho'
    rcases List.mem_append.1 ho' with hold | hnew
    · obtain ⟨mid, hmid, hall', -⟩ := hpre.of_mem hold
      exact not_run_of_loops (hbefore.2 o' hold).loops hall'
    · rcases List.mem_cons.1 hnew with rfl | hnew
      · exact not_run_of_loops hbefore.1.loops hall
      · obtain ⟨mid, rest, hsplit⟩ := List.append_of_mem hnew
        obtain ⟨-, hall', hf⟩ := hlater hsplit
        exact not_run_of_loops hf.unstarted.loops hall'
  · intro mid o' rest hsplit d result hbegan' hret'
    obtain ⟨hmid, hall', hf⟩ := hlater hsplit
    have hsplit' : h = ((pre ++ o :: mid) ++ [o']) ++ rest := by simp [heq, hsplit]
    obtain ⟨k, hk⟩ := began_of_returned hmid hall' hret'
    have hkind : k = .init := (hsplit' ▸ hk.append rest).unique hrun hbegan'
    subst hkind
    rcases hf.refuses hmid hall' hk hret' with ⟨hl, hresult⟩ | ⟨hl, hresult⟩
    · refine .inl ⟨hresult, fun o'' ho'' hd => ?_⟩
      have hterminated := (terminated_iff hmid).2 ⟨o'', ho'', hd⟩
      simp [hl] at hterminated
    · exact .inr ⟨hresult, (terminated_iff hmid).1 hl⟩
  · exact (failed_of_run hrun heq hbegan hret).still (orderly_of_run hrun) hstill
  · rcases List.mem_cons.1 ho' with rfl | hnew
    · exact keeps_of_loops (sound_of_run hpre) hbefore.1.loops hall
    · obtain ⟨mid, rest, hsplit⟩ := List.append_of_mem hnew
      obtain ⟨hmid, hall', hf⟩ := hlater hsplit
      exact keeps_of_loops (sound_of_run hmid) hf.unstarted.loops hall'

/-- Startup fails at the first of two tasks while a third is being registered. Then the set is to
be started again, the third task comes in, the set is destroyed, and it is to be started once
more. -/
theorem failure_is_final_midway : ∃ (h : List (SetOccurrence Unit Unit)) (s : TaskSet Unit Unit)
    (pre post : List (SetOccurrence Unit Unit)) (o : SetOccurrence Unit Unit),
    (setSystem Unit Unit).Run h s ∧ h = pre ++ o :: post ∧ post.length = 4 ∧
    Began (pre ++ [o]) 2 .init ∧ Returns o 2 (.error (.initFailed "a" ⟨"boom", []⟩)) ∧
    (∃ done current rest, Snapshot pre 2 (done ++ current :: rest) ∧ "a" = current.task.name ∧
      initsBy 2 h = (done ++ [current]).map (·.ticket) ∧
      outcomesFor 2 h = done.map (·.success) ++ [(current.ticket, .error ⟨"boom", []⟩)]) ∧
    (∀ o' ∈ h, ∀ task, (o'.before.perform o'.event).2 ≠ .loop (.run task)) ∧
    (∀ mid o' rest, post = mid ++ o' :: rest → ∀ d result, Began h d .init →
      Returns o' d result →
        result = .error .initAborted ∧ (∀ o'' ∈ pre ++ o :: mid, ¬Demolishes o'') ∨
        result = .error .terminated ∧ ∃ o'' ∈ pre ++ o :: mid, Demolishes o'') ∧
    (∀ now, IsStill s now → ∀ x ∈ s.calls, ∃ r, x.phase = .initializing r) ∧
    ∀ o' ∈ o :: post, Keeps o' := by
  obtain ⟨h, s, hrun, hcheck⟩ := System.exists_run_of_replay (S := setSystem Unit Unit)
    (starts_new "s" none)
    [.begin 0 (.register ⟨0, "a"⟩ [] {} none ()) false,
      .begin 1 (.register ⟨1, "b"⟩ [] {} none ()) false, .begin 2 .init false,
      .begin 3 (.register ⟨2, "c"⟩ [] {} none ()) false,
      .initialized 2 (.error ⟨"boom", []⟩) false, .begin 4 .init false,
      .initialized 3 (.ok ()) false, .begin 5 .destroy false, .begin 6 .init false]
    (fun h _ => decide (Began (h.take 4) 2 .init) && ((h[4]?).any fun o =>
      decide (Returns o 2 (.error (.initFailed "a" ⟨"boom", []⟩)))) && h.length == 9)
    (by decide +kernel)
  simp only [Bool.and_eq_true, decide_eq_true_eq, beq_iff_eq, Option.any_eq_true] at hcheck
  obtain ⟨⟨hbegan, o, ho, hret⟩, hlen⟩ := hcheck
  have hsplit : h = h.take 4 ++ o :: h.drop 5 := by
    obtain ⟨hi, rfl⟩ := List.getElem?_eq_some_iff.1 ho
    simp
  exact ⟨h, s, h.take 4, h.drop 5, o, hrun, hsplit, by simp [hlen], hbegan.append [o], hret,
    failure_is_final hrun hsplit (hbegan.append [o]) hret⟩

end TaskSet

end Overseer
