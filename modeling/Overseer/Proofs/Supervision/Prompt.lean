import Overseer.Proofs.Supervision.Order

/-!
# Calls that need not wait for a lock

A call goes on as far as it can with every turn (`Rested`), and while the owner's code initializes a
task nobody holds the lifecycle lock. So between two events nobody waits for that lock but calls on
a set that is being destroyed, and a set that is pending has no calls in progress at all
(`prompt_of_run`). In particular the first startup opens the set with its first turn
(`opened_of_began`).
-/

namespace Overseer

variable {κ ξ : Type}

namespace TaskSet

variable {s t : TaskSet κ ξ} {c : CallId} {p q : CallPhase κ ξ} {turn : CallTurn}
  {h : List (SetOccurrence κ ξ)} {e : SetEvent κ ξ}

/-! ## Turns go as far as they can -/

/-- The call is over, or it cannot go on. -/
def Rested (c : CallId) (s : TaskSet κ ξ) : Prop :=
  ∀ q, ⟨c, q⟩ ∈ s.calls → s.canGoOn ⟨c, q⟩ = false

theorem rested_endCall (s : TaskSet κ ξ) (c : CallId) : Rested c (s.endCall c) :=
  fun _ hq => absurd ((alike_endCall s c).calls ▸ hq) not_mem_without

theorem rested_setPhase (h : (s.setPhase c q).canGoOn ⟨c, q⟩ = false) :
    Rested c (s.setPhase c q) := by
  intro q' hq'
  rw [phase_of_mem_setPhase hq']
  exact h

theorem rested_prepare (s : TaskSet κ ξ) (c : CallId) (next : Entry) (rest : List Entry) :
    Rested c (s.prepare c next rest).1 := by
  unfold prepare
  split
  · exact rested_endCall s c
  · exact rested_setPhase rfl

theorem rested_conclude (s : TaskSet κ ξ) (c : CallId) (b : Bool) :
    Rested c (s.conclude c b).1 := by
  unfold conclude
  split
  · exact rested_endCall s c
  · exact rested_endCall _ c

theorem rested_goOn (s : TaskSet κ ξ) (c : CallId) (es : List Entry) (b : Bool) :
    Rested c (s.goOn c es b).1 := by
  unfold goOn
  cases es with
  | nil =>
    dsimp only
    split
    · exact rested_conclude _ c b
    · rename_i hheld
      exact rested_setPhase (by simpa [canGoOn] using hheld)
  | cons next rest =>
    dsimp only
    split
    · exact rested_prepare _ c next rest
    · rename_i hheld
      exact rested_setPhase (by simpa [canGoOn] using hheld)

theorem rested_openUp (s : TaskSet κ ξ) (c : CallId) (b : Bool) : Rested c (s.openUp c b).1 := by
  unfold openUp
  split
  · exact rested_goOn _ c _ b
  all_goals exact rested_endCall s c

theorem rested_consider (s : TaskSet κ ξ) (c : CallId) (r : Registration κ ξ) :
    Rested c (s.consider c r).1 := by
  unfold consider
  split
  · exact rested_endCall s c
  · split
    · exact rested_setPhase rfl
    · exact rested_endCall _ c

theorem rested_reconsider (s : TaskSet κ ξ) (c : CallId) (r : Registration κ ξ) :
    Rested c (s.reconsider c r).1 := by
  unfold reconsider
  split
  · exact rested_endCall _ c
  · exact rested_endCall _ c

theorem rested_demolish (s : TaskSet κ ξ) (c : CallId) : Rested c (s.demolish c).1 := by
  rw [demolish_eq]
  split
  · exact rested_endCall _ c
  · rename_i hquiet
    exact rested_setPhase (s := s.cleared) (Bool.eq_false_iff.2 hquiet)

theorem rested_poll {x : Call κ ξ} (hx : s.call? c = some x)
    (hone : ∀ q, ⟨c, q⟩ ∈ s.calls → q = x.phase) (b : Bool) : Rested c (s.poll c b).1 := by
  -- a call that does not go on stays in its phase
  have hstays : s.canGoOn ⟨c, x.phase⟩ = false → Rested c s := by
    intro hno q hq
    rw [hone q hq]
    exact hno
  unfold poll
  simp only [hx]
  cases hp : x.phase with
  | initializing r => exact hstays (by simp [canGoOn, hp])
  | preparing current rest => exact hstays (by simp [canGoOn, hp])
  | queued =>
    dsimp only
    split
    · split
      · exact rested_openUp _ c b
      · rename_i hheld
        exact rested_setPhase (s := s.lockLifecycle c) (Bool.eq_false_iff.2 hheld)
    · rename_i hheld
      exact hstays (by simpa [canGoOn, hp] using hheld)
  | draining =>
    dsimp only
    split
    · exact rested_endCall s c
    · rename_i hquiet
      exact hstays (by simpa [canGoOn, hp] using hquiet)
  | admitting r =>
    dsimp only
    split
    · exact rested_consider s c r
    · rename_i hheld
      exact hstays (by simpa [canGoOn, hp] using hheld)
  | readmitting r =>
    dsimp only
    split
    · exact rested_reconsider s c r
    · rename_i hheld
      exact hstays (by simpa [canGoOn, hp] using hheld)
  | opening =>
    dsimp only
    split
    · exact rested_openUp s c b
    · rename_i hheld
      exact hstays (by simpa [canGoOn, hp] using hheld)
  | checking next rest =>
    dsimp only
    split
    · exact rested_prepare s c next rest
    · rename_i hheld
      exact hstays (by simpa [canGoOn, hp] using hheld)
  | aborting current source =>
    dsimp only
    split
    · exact rested_endCall _ c
    · rename_i hheld
      exact hstays (by simpa [canGoOn, hp] using hheld)
  | concluding =>
    dsimp only
    split
    · exact rested_conclude s c b
    · rename_i hheld
      exact hstays (by simpa [canGoOn, hp] using hheld)
  | demolishing =>
    dsimp only
    split
    · exact rested_demolish s c
    · rename_i hheld
      exact hstays (by simpa [canGoOn, hp] using hheld)

theorem rested_initialized (s : TaskSet κ ξ) (c : CallId) (result : Except Fault Unit) (b : Bool) :
    Rested c (s.initialized c result b).1 ∨ (s.initialized c result b).1 = s := by
  have hback : ∀ {u : TaskSet κ ξ} {p q : CallPhase κ ξ}, ⟨c, p⟩ ∈ u.calls →
      Rested c (((u.setPhase c q).lockLifecycle c).poll c b).1 := fun {u p q} hp =>
    rested_poll (s := (u.setPhase c q).lockLifecycle c) (call?_setPhase hp q)
      (fun _ hq => phase_of_mem_setPhase (s := u) hq) b
  unfold initialized
  cases hx : s.call? c with
  | none => exact .inr rfl
  | some x =>
    have hc := mem_of_call? hx
    dsimp only
    cases hp : x.phase with
    | initializing r =>
      rw [hp] at hc
      cases result with
      | error source => exact .inl (rested_endCall s c)
      | ok _ => exact .inl (hback hc)
    | preparing current rest =>
      rw [hp] at hc
      cases result with
      | error source =>
        exact .inl (hback (u := s.record .error "Task failed to initialize. Aborting startup."
          [("task", .text current.task.name), ("error", .text source.text)]) hc)
      | ok _ => exact .inl (rested_goOn _ c rest b)
    | _ => exact .inr rfl

/-- A turn leaves the call rested, unless nothing happens in it. -/
theorem rested_of_perform (hs : Sound (begun h) s) (ho : Orderly s)
    (hall : allows h s e = true) (hc : e.caller? = some c) :
    Rested c (s.perform e).1 ∨ (s.perform e).1 = s := by
  cases e with
  | begin d request b =>
    obtain rfl := Option.some.inj hc
    have hnew := (allows_begin.1 hall).2
    have hone : ∀ {a l : Lock} {p : CallPhase κ ξ},
        ∀ q, ⟨d, q⟩ ∈ ({ s.addCall d p with lifecycleLock := a, startupLock := l }).calls →
          q = p := by
      intro a l p q hq
      rcases List.mem_append.1 hq with hq | hq
      · exact absurd (hs.calls _ hq) hnew
      · exact (Call.mk.inj (List.mem_singleton.1 hq)).2
    have hcall := fun p => call?_of_mem (s := s) (hs.call?_of_new hnew) p
    refine .inl ?_
    cases request with
    | register task args options order extra =>
      exact rested_poll (s := (s.addCall d _).lockLifecycle d) (hcall _) hone b
    | init =>
      exact rested_poll (s := { s.addCall d .queued with startupLock := s.startupLock.acquire d })
        (hcall _) hone b
    | destroy => exact rested_poll (s := (s.addCall d _).lockLifecycle d) (hcall _) hone b
  | poll d b =>
    obtain rfl := Option.some.inj hc
    cases hx : s.call? d with
    | none =>
      refine .inr ?_
      show (s.poll d b).1 = s
      simp [poll, hx]
    | some x => exact .inl (rested_poll hx (fun q hq => ho.phase_eq hq (mem_of_call? hx)) b)
  | initialized d result b =>
    obtain rfl := Option.some.inj hc
    exact rested_initialized s d result b
  | _ => contradiction

/-! ## Histories -/

/-- Nobody waits for the lifecycle lock of a set that is not terminated, and no call is in progress
on a set that is pending. -/
structure Prompt (s : TaskSet κ ξ) : Prop where
  lifecycle : s.lifecycle ≠ .terminated → ∀ c, ¬s.Wants CallPhase.wantsLifecycle c
  pending : s.lifecycle = .pending → s.calls = []

/-- If somebody wants the lifecycle lock after a turn, somebody else wanted it before. -/
theorem prompt_of_rested (hs : Sound (begun h) s) (hp : Prompt s) (ho : Orderly (s.perform e).1)
    (hs' : Sound (begun (h ++ [⟨s, e⟩])) (s.perform e).1) (hall : allows h s e = true)
    (hc : e.caller? = some c) (hr : Rested c (s.perform e).1) : Prompt (s.perform e).1 := by
  obtain ⟨d, hcourse, -⟩ := course_of_perform hs hall
  have hother : ∀ {x}, x ∈ (s.perform e).1.calls → x.id ≠ c → x ∈ s.calls := fun hx hne =>
    mem_calls_of_other hs hall hx fun hxc => hne (Option.some.inj (hxc.symm.trans hc))
  have hlifecycle : (s.perform e).1.lifecycle ≠ .terminated →
      ∀ c, ¬(s.perform e).1.Wants CallPhase.wantsLifecycle c := by
    intro hl b hwants
    obtain ⟨a, hheld, q, hq, hw⟩ := ho.lifecycle.held hwants
    by_cases hac : a = c
    · subst hac
      have hno := hr q hq
      cases q with
      | draining => exact hl (ho.drains _ hq)
      | initializing r => contradiction
      | queued => contradiction
      | preparing current rest => contradiction
      | _ => simp [canGoOn, Lock.isHeldBy, hheld] at hno
    · refine hp.lifecycle (fun hterminated => hl ?_) a ⟨q, hother hq hac, hw⟩
      exact hcourse.terminated ((lifecycle_entered s e).trans hterminated)
  refine ⟨hlifecycle, fun hl => ?_⟩
  have hbefore : s.lifecycle = .pending := by
    by_contra hno
    exact hcourse.keeps (P := fun s => s.lifecycle ≠ .pending) Move.opened
      ((lifecycle_entered s e).trans_ne hno) hl
  -- the call whose turn it was would be the only one, and nothing keeps it from going on
  have honly : ∀ {x}, x ∈ (s.perform e).1.calls → x.id = c := by
    intro x hx
    by_contra hne
    have hmem := hother hx hne
    simp [hp.pending hbefore] at hmem
  refine List.eq_nil_iff_forall_not_mem.2 fun x hx => ?_
  obtain ⟨d, q⟩ := x
  obtain rfl := honly hx
  have hfree : q.wantsLifecycle = false :=
    Bool.eq_false_iff.2 fun hw => hlifecycle (by simp [hl]) d ⟨q, hx, hw⟩
  cases q with
  | queued =>
    obtain ⟨a, hheld, q, hq, -⟩ := ho.startup.held ⟨.queued, hx, rfl⟩
    obtain rfl := honly hq
    have hno := hr _ hx
    simp [canGoOn, Lock.isHeldBy, hheld] at hno
  | initializing r => cases hs'.unopened hl _ hx
  | preparing current rest =>
    have hstarting := hs'.starting _ hx rfl
    simp [hl] at hstarting
  | _ => contradiction

theorem prompt_of_run (hrun : (setSystem κ ξ).Run h s) : Prompt s := by
  induction hrun with
  | start hstart =>
    obtain ⟨name, pool, rfl⟩ := hstart
    exact ⟨fun _ c ⟨p, hp, _⟩ => absurd hp List.not_mem_nil, fun _ => rfl⟩
  | @next h s e hrun hall ih =>
    have hs := sound_of_run hrun
    have hs' := sound_of_run (hrun.next hall)
    have ho' := orderly_of_run (hrun.next hall)
    suffices hnext : Prompt (s.perform e).1 from ⟨hnext.lifecycle, hnext.pending⟩
    cases hc : e.caller? with
    | none =>
      have hw := wanes_of_perform hs hall hc
      refine ⟨fun hl c ⟨p, hp, hwants⟩ => ?_, fun hl => ?_⟩
      · exact ih.lifecycle (hw.lifecycle ▸ hl) c ⟨p, hw.calls _ hp, hwants⟩
      · refine List.eq_nil_iff_forall_not_mem.2 fun x hx => ?_
        have hmem := hw.calls x hx
        simp [ih.pending (hw.lifecycle ▸ hl)] at hmem
    | some c =>
      rcases rested_of_perform hs (orderly_of_run hrun) hall hc with hr | heq
      · exact prompt_of_rested hs ih { ho' with } { hs' with } hall hc hr
      · rw [heq]
        exact ih

/-! ## The first startup -/

/-- A startup that finds the set pending, and leaves it so, has not returned. -/
theorem Takes.stays_pending (ht : Takes c s p t turn) (hk : p.kind = .init)
    (hc : ⟨c, p⟩ ∈ s.calls) (hl : t.lifecycle = .pending) : ∃ q, ⟨c, q⟩ ∈ t.calls := by
  induction ht with
  | waits s p => exact ⟨p, hc⟩
  | alike ha _ ih => exact ih hk (ha.calls ▸ hc) hl
  | unqueues _ _ ih => exact ih rfl (mem_setPhase_self hc) hl
  | @opens s t turn _ _ ih =>
    have hc' : ⟨c, .opening⟩ ∈ ({ s with lifecycle := .starting } : TaskSet κ ξ).calls := hc
    exact ih (CallPhase.kind_before _) (mem_setPhase_self hc') hl
  | passes hst ht =>
    have hpending := ht.lifecycle.symm.trans hl
    rcases hst with hst | hst <;> cases hst.symm.trans hpending
  | fails hst ht => cases hst.symm.trans (ht.lifecycle.symm.trans hl)
  | expires hst _ ht => cases hst.symm.trans (ht.lifecycle.symm.trans hl)
  | prepares _ ht => exact ⟨_, ht.calls ▸ mem_setPhase_self hc⟩
  | @starts s t b _ ht =>
    have hstarted : (s.launched c b).lifecycle = .started := (startLoops_same _ _).1
    cases hstarted.symm.trans (ht.lifecycle.symm.trans hl)
  | @givesUp s t current source ht =>
    rw [ht.lifecycle] at hl
    by_cases hterminated : s.lifecycle = Lifecycle.terminated <;>
      simp [givenUp, without, hterminated] at hl
  | enrolls hphase _ _ => rcases hphase with ⟨rfl, -⟩ | rfl <;> contradiction
  | _ => contradiction

/-- Once startup has been called, the set is not pending any more. -/
theorem opened_of_began (hrun : (setSystem κ ξ).Run h s) (hbegan : Began h c .init) :
    s.lifecycle ≠ .pending := by
  obtain ⟨⟨s', e⟩, ho, request, b, rfl, hk⟩ := hbegan
  obtain ⟨pre, post, heq⟩ := List.append_of_mem ho
  obtain ⟨hpre, hall, hafter⟩ := hrun.split heq
  refine opened_of_run hrun heq fun hl => ?_
  have hidle := (prompt_of_run hafter).pending hl
  have hall : allows pre s' (.begin c request b) = true := hall
  obtain ⟨turn, -, hgives⟩ := gives_of_perform (sound_of_run hpre) hall rfl
  have hl : (s'.perform (.begin c request b)).1.lifecycle = .pending := hl
  have hidle : (s'.perform (.begin c request b)).1.calls = [] := hidle
  generalize (s'.perform (.begin c request b)).1 = t at hgives hl hidle
  cases hgives with
  | begins ht =>
    obtain ⟨q, hq⟩ := ht.stays_pending ((request.kind_phase c).trans hk) (mem_addCall_self _ _ _) hl
    simp [hidle] at hq
  | misses hno _ => contradiction

end TaskSet

end Overseer
