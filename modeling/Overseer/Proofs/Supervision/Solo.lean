import Overseer.Proofs.Supervision.Order
import Overseer.Proofs.Supervision.Prompt

/-!
# A set with one caller

If all calls on a set come from one place, one after the other, nobody is in the way of a call:
there is nothing to wait for but an `init` that runs, and loops when the set is destroyed. So what
a turn comes to is known beforehand, and there is one lemma for each phase in which a call of such
a set can have its turn. Each says what becomes of the lifecycle, the calls and the registry.
-/

namespace Overseer

variable {κ ξ : Type}

/-- Startup of a set with one registration has one task to initialize. -/
theorem Registry.schedule_singleton (r : Registration κ ξ) :
    Registry.schedule [r] = [r.entry] := by
  have htickets : ((Registry.schedule [r]).map (·.ticket)).Nodup :=
    Registry.nodup_schedule (List.nodup_singleton _)
  have hnodup : (Registry.schedule [r]).Nodup := List.Nodup.of_map _ htickets
  have hall : ∀ e ∈ Registry.schedule [r], e = r.entry := by
    intro e he
    simpa using Registry.entry_of_mem_schedule he
  have hmem : r.entry ∈ Registry.schedule [r] := Registry.mem_schedule List.mem_cons_self
  have hsame := List.eq_replicate_of_mem hall
  have hlt : 0 < (Registry.schedule [r]).length := List.length_pos_of_mem hmem
  rw [hsame] at hnodup ⊢
  rw [List.nodup_replicate] at hnodup
  rw [Nat.le_antisymm hnodup hlt]
  rfl

/-- The task whose `init` the call waits for. -/
def CallPhase.subject? : CallPhase κ ξ → Option TaskRef
  | .initializing r => some r.task
  | .preparing current _ => some current.task
  | _ => none

namespace TaskSet

variable {s t : TaskSet κ ξ} {c : CallId} {p q : CallPhase κ ξ} {turn : CallTurn}
  {next : Entry} {rest : List Entry}

/-! ## The only call -/

theorem calls_setPhase (hc : s.calls = [⟨c, p⟩]) (q : CallPhase κ ξ) :
    (s.setPhase c q).calls = [⟨c, q⟩] := by
  simp [setPhase, hc]

theorem calls_without (hc : s.calls = [⟨c, p⟩]) : (s.without c).calls = [] := by
  simp [without, hc]

theorem calls_addCall (hc : s.calls = []) (c : CallId) (p : CallPhase κ ξ) :
    (s.addCall c p).calls = [⟨c, p⟩] := by
  simp [addCall, hc]

/-- Between two events, the only call does not wait for the lifecycle lock of a set that is not
terminated. -/
theorem Prompt.not_wants (hp : Prompt s) (hl : s.lifecycle ≠ .terminated)
    (hc : s.calls = [⟨c, p⟩]) : p.wantsLifecycle = false :=
  Bool.eq_false_iff.2 fun hw => hp.lifecycle hl c ⟨p, hc ▸ List.mem_cons_self, hw⟩

/-! ## Registrations -/

theorem Alike.refusal? {torn : List TaskRef} (h : Alike torn s t) (r : Registration κ ξ) :
    t.refusal? r = s.refusal? r := by
  unfold TaskSet.refusal?
  rw [h.lifecycle, h.registry]

/-- The first registration comes in at once. -/
theorem Takes.admitting {r : Registration κ ξ} (ht : Takes c s p t turn) (hp : p = .admitting r)
    (hc : s.calls = [⟨c, p⟩]) (hl : s.lifecycle = .pending) (hr : s.registry = [])
    (hfree : s.refusal? r = none) (hprompt : Prompt t) :
    t.lifecycle = .pending ∧ t.calls = [] ∧ t.registry = [r] ∧ turn = .returned (.ok ()) := by
  induction ht with
  | waits s p => exact absurd (hprompt.pending hl) (by simp [hc])
  | alike ha _ ih =>
    exact ih hp (ha.calls.trans hc) (ha.lifecycle.trans hl) (ha.registry.trans hr)
      ((ha.refusal? r).trans hfree) hprompt
  | expires hl' _ _ => cases hl.symm.trans hl'
  | comesLate _ hu _ => simp [isUnderway, hl] at hu
  | refuses href _ =>
    obtain rfl := CallPhase.admitting.inj hp
    cases hfree.symm.trans href
  | @enrolls s t p a hphase _ ht =>
    obtain rfl : a = r := by
      rcases hphase with ⟨rfl, -⟩ | rfl
      · exact CallPhase.admitting.inj hp
      · contradiction
    obtain ⟨u, hgo, heq⟩ := enroll_without s a c
    rw [if_neg (by simp [hl])] at heq
    have hcalls : (s.admitted a c).calls = [] := calls_without (p := p) hc
    have hreg : (s.admitted a c).registry = [a] := by simp [admitted, without, hr, Registry.insert]
    rw [heq] at ht
    exact ⟨ht.lifecycle.trans (hgo.lifecycle.trans hl), ht.calls.trans (hgo.calls.trans hcalls),
      ht.registry.trans (hgo.registry.trans hreg), rfl⟩
  | _ => contradiction

/-! ## Startup -/

/-- Startup asks for the `init` of its next task. -/
theorem Takes.checking (ht : Takes c s p t turn) (hp : p = .checking next rest)
    (hc : s.calls = [⟨c, p⟩]) (hl : s.lifecycle = .starting) (hprompt : Prompt t) :
    t.lifecycle = .starting ∧ t.calls = [⟨c, .preparing next rest⟩] ∧ t.registry = s.registry ∧
      turn = .callInit next.task next.args := by
  induction ht with
  | waits s p =>
    subst hp
    cases hprompt.not_wants (by simp [hl]) hc
  | alike ha _ ih =>
    rw [← ha.registry]
    exact ih hp (ha.calls.trans hc) (ha.lifecycle.trans hl) hprompt
  | expires hl' _ _ => cases hl.symm.trans hl'
  | prepares _ ht =>
    obtain ⟨rfl, rfl⟩ := CallPhase.checking.inj hp
    exact ⟨ht.lifecycle.trans hl, ht.calls.trans (calls_setPhase hc _), ht.registry, rfl⟩
  | enrolls hphase _ _ => rcases hphase with ⟨h, -⟩ | h <;> cases hp.symm.trans h
  | _ => contradiction

/-- Nothing happens while an `init` runs. -/
theorem Takes.preparing (ht : Takes c s p t turn) (hp : p = .preparing next rest)
    (hl : s.lifecycle = .starting) : Alike [] s t ∧ turn = .wait := by
  induction ht with
  | waits s p => exact ⟨.refl s, rfl⟩
  | alike ha _ ih =>
    obtain ⟨hlike, hturn⟩ := ih hp (ha.lifecycle.trans hl)
    exact ⟨ha.then hlike, hturn⟩
  | expires hl' _ _ => cases hl.symm.trans hl'
  | enrolls hphase _ _ => rcases hphase with ⟨h, -⟩ | h <;> cases hp.symm.trans h
  | _ => contradiction

/-- Startup comes to its end. -/
theorem Takes.concluding (ht : Takes c s p t turn) (hp : p = .concluding)
    (hc : s.calls = [⟨c, p⟩]) (hl : s.lifecycle = .starting) (hprompt : Prompt t) :
    t.lifecycle = .started ∧ t.calls = [] ∧ turn = .returned (.ok ()) := by
  induction ht with
  | waits s p =>
    subst hp
    cases hprompt.not_wants (by simp [hl]) hc
  | alike ha _ ih => exact ih hp (ha.calls.trans hc) (ha.lifecycle.trans hl) hprompt
  | expires hl' _ _ => cases hl.symm.trans hl'
  | @starts s t b _ ht =>
    obtain ⟨hstarted, hcalls, -⟩ := startLoops_same (s.registry.tasks.map (·.id))
      ({ s with lifecycle := .started, isRooted := true, rootCancelled := b }.without c)
    exact ⟨ht.lifecycle.trans hstarted, ht.calls.trans (hcalls.trans (calls_without hc)), rfl⟩
  | enrolls hphase _ _ => rcases hphase with ⟨h, -⟩ | h <;> cases hp.symm.trans h
  | _ => contradiction

/-- The call goes on with a startup that has `es` before it: it asks for the next `init`, or the set
has started and it returns. -/
def Advances (c : CallId) (es : List Entry) (s t : TaskSet κ ξ) (turn : CallTurn) : Prop :=
  match es with
  | [] => t.lifecycle = .started ∧ t.calls = [] ∧ turn = .returned (.ok ())
  | next :: rest => t.lifecycle = .starting ∧ t.calls = [⟨c, .preparing next rest⟩] ∧
      t.registry = s.registry ∧ turn = .callInit next.task next.args

theorem Takes.advancing (ht : Takes c s p t turn) (hp : p = .before rest) (hc : s.calls = [⟨c, p⟩])
    (hl : s.lifecycle = .starting) (hprompt : Prompt t) : Advances c rest s t turn := by
  cases rest with
  | nil => exact ht.concluding hp hc hl hprompt
  | cons next rest => exact ht.checking hp hc hl hprompt

/-- The first startup takes its snapshot and goes on with it. -/
theorem Takes.starting (ht : Takes c s p t turn) (hp : p = .queued ∨ p = .opening)
    (hc : s.calls = [⟨c, p⟩]) (hl : s.lifecycle = .pending) (hprompt : Prompt t) :
    Advances c s.registry.schedule s t turn := by
  induction ht with
  | waits s p => exact absurd (hprompt.pending hl) (by simp [hc])
  | alike ha _ ih =>
    have hnext := ih hp (ha.calls.trans hc) (ha.lifecycle.trans hl) hprompt
    rw [ha.registry] at hnext
    unfold Advances at hnext ⊢
    rwa [ha.registry] at hnext
  | unqueues _ _ ih => exact ih (.inr rfl) (calls_setPhase hc _) hl hprompt
  | @opens s t turn _ ht _ =>
    exact ht.advancing rfl (calls_setPhase (s := { s with lifecycle := .starting }) hc _) rfl hprompt
  | passes hl' _ => rcases hl' with hl' | hl' <;> cases hl.symm.trans hl'
  | fails hl' _ => cases hl.symm.trans hl'
  | expires hl' _ _ => cases hl.symm.trans hl'
  | enrolls hphase _ _ => rcases hphase with ⟨rfl, -⟩ | rfl <;> simp at hp
  | _ => simp at hp

/-- Startup fails. -/
theorem Takes.aborting {source : Fault} (ht : Takes c s p t turn) (hp : p = .aborting next source)
    (hc : s.calls = [⟨c, p⟩]) (hl : s.lifecycle = .starting) (hprompt : Prompt t) :
    t.lifecycle = .aborted ∧ t.calls = [] ∧
      turn = .returned (.error (.initFailed next.task.name source)) := by
  induction ht with
  | waits s p =>
    subst hp
    cases hprompt.not_wants (by simp [hl]) hc
  | alike ha _ ih => exact ih hp (ha.calls.trans hc) (ha.lifecycle.trans hl) hprompt
  | expires hl' _ _ => cases hl.symm.trans hl'
  | @givesUp s t current source' ht =>
    obtain ⟨rfl, rfl⟩ := CallPhase.aborting.inj hp
    have hup : s.givenUp c = ({ s with lifecycle := .aborted } : TaskSet κ ξ).without c := by
      rw [givenUp, if_neg (by simp [hl])]
    rw [hup] at ht
    exact ⟨ht.lifecycle, ht.calls.trans (calls_without hc), rfl⟩
  | enrolls hphase _ _ => rcases hphase with ⟨h, -⟩ | h <;> cases hp.symm.trans h
  | _ => contradiction

/-! ## Teardown -/

/-- A destroy call does its work at once, and returns unless loops are left. -/
theorem Takes.demolishing_solo (ht : Takes c s p t turn) (hp : p = .demolishing)
    (hc : s.calls = [⟨c, p⟩]) (hl : s.lifecycle ≠ .terminated) (hprompt : Prompt t) :
    t.lifecycle = .terminated ∧ (t.calls = [] ∧ turn = .returned (.ok ()) ∨
      t.calls = [⟨c, .draining⟩] ∧ turn = .wait) := by
  have hcleared : ∀ {u : TaskSet κ ξ}, u.calls = [⟨c, .demolishing⟩] →
      u.cleared.calls = [⟨c, .demolishing⟩] := fun {u} hu =>
    (congrArg (·.calls) (desk_cleared u)).trans hu
  induction ht with
  | waits s p =>
    subst hp
    cases hprompt.not_wants hl hc
  | alike ha _ ih => exact ih hp (ha.calls.trans hc) (ha.lifecycle.trans_ne hl) hprompt
  | expires hl' _ _ => exact absurd hl' hl
  | demolishes ht =>
    exact ⟨ht.lifecycle.trans (lifecycle_cleared _),
      .inl ⟨ht.calls.trans (calls_without (hcleared hc)), rfl⟩⟩
  | drains ht =>
    exact ⟨ht.lifecycle.trans (lifecycle_cleared _),
      .inr ⟨ht.calls.trans (calls_setPhase (hcleared hc) _), rfl⟩⟩
  | enrolls hphase _ _ => rcases hphase with ⟨h, -⟩ | h <;> cases hp.symm.trans h
  | _ => contradiction

/-- A destroy call that waits for loops goes on waiting, or returns. -/
theorem Takes.draining (ht : Takes c s p t turn) (hp : p = .draining) (hc : s.calls = [⟨c, p⟩]) :
    t.lifecycle = s.lifecycle ∧ (t.calls = [⟨c, .draining⟩] ∧ turn = .wait ∨
      t.calls = [] ∧ turn = .returned (.ok ())) := by
  induction ht with
  | waits s p => exact ⟨rfl, .inl ⟨hp ▸ hc, rfl⟩⟩
  | alike ha _ ih => exact (ih hp (ha.calls.trans hc)).imp_left (·.trans ha.lifecycle)
  | expires _ hk _ =>
    subst hp
    contradiction
  | ends ht => exact ⟨ht.lifecycle, .inr ⟨ht.calls.trans (calls_without hc), rfl⟩⟩
  | enrolls hphase _ _ => rcases hphase with ⟨h, -⟩ | h <;> cases hp.symm.trans h
  | _ => contradiction

/-! ## Events -/

/-- The task whose `init` an event ends, and how it has ended. -/
def initOutcome? (s : TaskSet κ ξ) : SetEvent κ ξ → Option (TaskRef × Except Fault Unit)
  | .initialized c result _ =>
    (s.call? c).bind fun x => x.phase.subject?.map fun task => (task, result)
  | _ => none

/-- The `init`s that have ended, and how. -/
def initOutcomes (h : List (SetOccurrence κ ξ)) : List (TaskRef × Except Fault Unit) :=
  h.filterMap fun o => o.before.initOutcome? o.event

/-- An `init` that ends is that of a task for which a call waits. -/
theorem exists_of_initOutcome? {e : SetEvent κ ξ} {x : TaskRef × Except Fault Unit}
    (hx : s.initOutcome? e = some x) :
    ∃ c q, e.caller? = some c ∧ ⟨c, q⟩ ∈ s.calls ∧ q.subject? = some x.1 := by
  unfold initOutcome? at hx
  split at hx
  · obtain ⟨y, hy, hx⟩ := Option.bind_eq_some_iff.1 hx
    obtain ⟨task, htask, rfl⟩ := Option.map_eq_some_iff.1 hx
    exact ⟨_, _, rfl, mem_of_call? hy, htask⟩
  · contradiction

theorem initOutcome?_eq_none {e : SetEvent κ ξ}
    (h : ∀ c q, e.caller? = some c → ⟨c, q⟩ ∈ s.calls → q.subject? = none) :
    s.initOutcome? e = none := by
  refine Option.eq_none_iff_forall_ne_some.2 fun x hx => ?_
  obtain ⟨c, q, hc, hq, htask⟩ := exists_of_initOutcome? hx
  cases (h c q hc hq).symm.trans htask

/-- No late registration is refused if none is on its way. -/
theorem lateRefusal?_eq_none (h : ∀ x ∈ s.calls, x.phase.late? = none) (e : SetEvent κ ξ) :
    s.lateRefusal? e = none := by
  have hlate : (e.resumes?.bind fun c => (s.call? c).bind (·.phase.late?)) = none := by
    refine Option.bind_eq_none_iff.2 fun c _ => Option.bind_eq_none_iff.2 fun x hx => ?_
    exact h x (List.mem_of_find?_eq_some hx)
  unfold lateRefusal?
  rw [hlate]
  split
  · rename_i turn _
    rcases turn with _ | _ | ⟨_ | _⟩ <;> rfl
  · rfl

/-- A stay that nobody joins goes on or ends. -/
theorem endings_append_stays (hone : s.stays.length ≤ 1) (hsub : t.stays.Sublist s.stays) :
    endings s t ++ t.stays = s.stays := by
  match hs : s.stays, hone with
  | [], _ =>
    rw [hs] at hsub
    simp [endings, hs, List.sublist_nil.1 hsub]
  | [x], _ =>
    rw [hs] at hsub
    rcases List.sublist_singleton.1 hsub with ht | ht
    · simp [endings, hs, tickets_eq_map_stays, ht]
    · simp [endings, hs, tickets_eq_map_stays, ht]

section Events

variable {h : List (SetOccurrence κ ξ)} {e : SetEvent κ ξ} {d : CallId} {cancelled : Bool}

theorem prompt_of_perform (hrun : (setSystem κ ξ).Run h s) (hall : allows h s e = true) :
    Prompt (s.perform e).1 :=
  have hnext := prompt_of_run (hrun.next hall)
  ⟨hnext.lifecycle, hnext.pending⟩

theorem empty_of_perform (hrun : (setSystem κ ξ).Run h s) (hall : allows h s e = true) :
    (s.perform e).1.lifecycle = .terminated → (s.perform e).1.registry = [] :=
  (sound_of_run (hrun.next hall)).empty

/-- A call takes its first turn. -/
theorem takes_begin (hrun : (setSystem κ ξ).Run h s) {request : Request κ ξ}
    (hall : allows h s (.begin c request cancelled) = true) :
    ∃ turn, (s.perform (.begin c request cancelled)).2 = .call turn ∧
      Takes c (s.addCall c (request.phase c)) (request.phase c)
        (s.perform (.begin c request cancelled)).1 turn := by
  obtain ⟨turn, hturn, hgives⟩ := gives_of_perform (sound_of_run hrun) hall rfl
  refine ⟨turn, hturn, ?_⟩
  generalize (s.perform (.begin c request cancelled)).1 = t at hgives
  cases hgives with
  | begins ht => exact ht
  | misses hno _ => contradiction

/-- The first registration comes in at once. -/
theorem perform_register (hrun : (setSystem κ ξ).Run h s) {task : TaskRef}
    {args : List Argument} {options : RegisterOptions PoolId κ} {extra : ξ}
    (hall : allows h s (.begin c (.register task args options none extra) cancelled) = true)
    (hl : s.lifecycle = .pending) (hr : s.registry = []) :
    ∃ t, s.perform (.begin c (.register task args options none extra) cancelled) =
      (t, .call (.returned (.ok ()))) ∧ t.lifecycle = .pending ∧ t.calls = [] ∧
      ∃ r, t.registry = [r] ∧ r.task = task := by
  have hidle := (prompt_of_run hrun).pending hl
  obtain ⟨turn, hturn, ht⟩ := takes_begin hrun hall
  obtain ⟨hl', hc', hr', rfl⟩ := ht.admitting rfl (calls_addCall hidle _ _) hl hr
    (by simp [refusal?, addCall, hl, hr, Registry.has]) (prompt_of_perform hrun hall)
  exact ⟨_, Prod.ext rfl hturn, hl', hc', _, hr', rfl⟩

/-- The first startup goes on with what is registered. -/
theorem perform_startup (hrun : (setSystem κ ξ).Run h s)
    (hall : allows h s (.begin c .init cancelled) = true) (hl : s.lifecycle = .pending) :
    ∃ t turn, s.perform (.begin c .init cancelled) = (t, .call turn) ∧
      Advances c s.registry.schedule s t turn := by
  have hidle := (prompt_of_run hrun).pending hl
  obtain ⟨turn, hturn, ht⟩ := takes_begin hrun hall
  exact ⟨_, turn, Prod.ext rfl hturn, ht.starting (s := s.addCall c .queued) (.inl rfl)
    (calls_addCall hidle _ _) hl (prompt_of_perform hrun hall)⟩

/-- The first startup of a set with one registration asks for the `init` of its task. -/
theorem perform_init (hrun : (setSystem κ ξ).Run h s)
    (hall : allows h s (.begin c .init cancelled) = true) (hl : s.lifecycle = .pending)
    {r : Registration κ ξ} (hr : s.registry = [r]) :
    ∃ t, s.perform (.begin c .init cancelled) = (t, .call (.callInit r.task r.args)) ∧
      t.lifecycle = .starting ∧ t.calls = [⟨c, .preparing r.entry []⟩] ∧ t.registry = [r] := by
  obtain ⟨t, turn, hperform, hnext⟩ := perform_startup hrun hall hl
  rw [hr, Registry.schedule_singleton] at hnext
  obtain ⟨hl', hc', hr', rfl⟩ := hnext
  exact ⟨t, hperform, hl', hc', hr'.trans hr⟩

/-- A set that is destroyed has nobody registered any more, and the call returns unless loops are
left. -/
theorem perform_destroy (hrun : (setSystem κ ξ).Run h s)
    (hall : allows h s (.begin c .destroy cancelled) = true) (hl : s.lifecycle ≠ .terminated)
    (hc : s.calls = []) : ∃ t turn, s.perform (.begin c .destroy cancelled) = (t, .call turn) ∧
      t.lifecycle = .terminated ∧ t.registry = [] ∧
      (t.calls = [] ∧ t.isQuiet = true ∧ turn = .returned (.ok ()) ∨
        t.calls = [⟨c, .draining⟩] ∧ turn = .wait) := by
  obtain ⟨turn, hturn, ht⟩ := takes_begin hrun hall
  obtain ⟨hl', hend⟩ := ht.demolishing_solo rfl (calls_addCall hc _ _) hl
    (prompt_of_perform hrun hall)
  have hempty := empty_of_perform hrun hall hl'
  refine ⟨_, turn, Prod.ext rfl hturn, hl', hempty,
    hend.imp_left fun ⟨hc', hret⟩ => ⟨hc', ?_, hret⟩⟩
  refine (quiet_of_returned (c := c) (sound_of_run hrun) (orderly_of_run hrun) hall (fun p hp => ?_)
    ⟨rfl, hturn.trans (congrArg _ hret)⟩).2
  rcases List.mem_append.1 hp with hp | hp
  · simp [hc] at hp
  · rw [(Call.mk.inj (List.mem_singleton.1 hp)).2]
    rfl

/-- A call that is not in progress gets no turn. -/
theorem perform_absent (hrun : (setSystem κ ξ).Run h s) (hall : allows h s e = true)
    (hd : e.caller? = some d) (hb : e.begins? = none) (hno : ∀ q, ⟨d, q⟩ ∉ s.calls) :
    s.perform e = (s, .call .wait) := by
  obtain ⟨turn, hturn, hgives⟩ := gives_of_perform (sound_of_run hrun) hall hd
  have hsame : (s.perform e).1 = s ∧ turn = .wait := by
    generalize (s.perform e).1 = t at hgives
    cases hgives with
    | begins _ => contradiction
    | misses _ _ => exact ⟨rfl, rfl⟩
    | _ hp _ =>
      obtain rfl := Option.some.inj hd
      exact absurd hp (hno _)
  exact Prod.ext hsame.1 (hturn.trans (congrArg _ hsame.2))

/-- Startup goes on when a task has been initialized. -/
theorem perform_initialized (hrun : (setSystem κ ξ).Run h s)
    (hall : allows h s (.initialized c (.ok ()) cancelled) = true) (hl : s.lifecycle = .starting)
    {current : Entry} (hc : s.calls = [⟨c, .preparing current rest⟩]) :
    ∃ t turn, s.perform (.initialized c (.ok ()) cancelled) = (t, .call turn) ∧
      Advances c rest (s.marked current.task.id) t turn := by
  obtain ⟨turn, hturn, hgives⟩ := gives_of_perform (sound_of_run hrun) hall rfl
  have hprompt := prompt_of_perform hrun hall
  have honly : ∀ {q : CallPhase κ ξ}, ⟨c, q⟩ ∈ s.calls → q = .preparing current rest := by
    intro q hq
    rw [hc] at hq
    exact (Call.mk.inj (List.mem_singleton.1 hq)).2
  refine ⟨(s.perform (.initialized c (.ok ()) cancelled)).1, turn, Prod.ext rfl hturn, ?_⟩
  generalize (s.perform (.initialized c (.ok ()) cancelled)).1 = t at hgives hprompt ⊢
  cases hgives with
  | comesBack hp _ => cases honly hp
  | goesOn hp ht =>
    obtain ⟨rfl, rfl⟩ := CallPhase.preparing.inj (honly hp)
    exact ht.advancing rfl (calls_setPhase (s := s.marked _) hc _) hl hprompt
  | misses _ hnone =>
    have hcall : s.call? c = some ⟨c, .preparing current rest⟩ := by simp [call?, hc]
    simp [outcome?, hcall, CallPhase.initTicket?] at hnone

/-- Startup goes on when the `init` of its last task has ended. -/
theorem perform_preparing (hrun : (setSystem κ ξ).Run h s) (hall : allows h s e = true)
    (hd : e.caller? = some c) (hb : e.begins? = none) (hl : s.lifecycle = .starting)
    {last : Entry} (hc : s.calls = [⟨c, .preparing last []⟩]) :
    ∃ t turn, s.perform e = (t, .call turn) ∧ t.stays = s.stays ∧
      (t.lifecycle = .starting ∧ t.calls = s.calls ∧ s.initOutcome? e = none ∧ turn = .wait ∨
        t.lifecycle = .started ∧ t.calls = [] ∧ s.initOutcome? e = some (last.task, .ok ()) ∧
          turn = .returned (.ok ()) ∨
        ∃ source, t.lifecycle = .aborted ∧ t.calls = [] ∧
          s.initOutcome? e = some (last.task, .error source) ∧
          turn = .returned (.error (.initFailed last.task.name source))) := by
  obtain ⟨turn, hturn, hgives⟩ := gives_of_perform (sound_of_run hrun) hall hd
  have hprompt := prompt_of_perform hrun hall
  have honly : ∀ {q : CallPhase κ ξ}, ⟨c, q⟩ ∈ s.calls → q = .preparing last [] := by
    intro q hq
    rw [hc] at hq
    exact (Call.mk.inj (List.mem_singleton.1 hq)).2
  have hcall : s.call? c = some ⟨c, .preparing last []⟩ := by simp [call?, hc]
  refine ⟨(s.perform e).1, turn, Prod.ext rfl hturn, ?_⟩
  generalize (s.perform e).1 = t at hgives hprompt
  cases hgives with
  | begins _ => contradiction
  | polls hp ht =>
    obtain rfl := Option.some.inj hd
    obtain rfl := honly hp
    obtain ⟨hlike, hwait⟩ := ht.preparing rfl hl
    exact ⟨hlike.goesOn.stays, .inl ⟨hlike.lifecycle.trans hl, hlike.calls, rfl, hwait⟩⟩
  | comesBack hp _ =>
    obtain rfl := Option.some.inj hd
    cases honly hp
  | breaks hp _ =>
    obtain rfl := Option.some.inj hd
    cases honly hp
  | goesOn hp ht =>
    obtain rfl := Option.some.inj hd
    obtain ⟨rfl, rfl⟩ := CallPhase.preparing.inj (honly hp)
    obtain ⟨hl', hc', hret⟩ :=
      ht.concluding rfl (calls_setPhase (s := s.marked _) hc _) hl hprompt
    exact ⟨(ht.stays rfl).trans (Move.marks s _).quiet.1,
      .inr (.inl ⟨hl', hc', by simp [initOutcome?, hcall, CallPhase.subject?], hret⟩)⟩
  | @aborts d current rest source _ _ _ hp ht =>
    obtain rfl := Option.some.inj hd
    obtain ⟨rfl, rfl⟩ := CallPhase.preparing.inj (honly hp)
    obtain ⟨hl', hc', hret⟩ := ht.aborting rfl (calls_setPhase hc _) hl hprompt
    exact ⟨ht.stays rfl,
      .inr (.inr ⟨source, hl', hc', by simp [initOutcome?, hcall, CallPhase.subject?], hret⟩)⟩
  | misses _ hnone =>
    refine ⟨rfl, .inl ⟨hl, rfl, ?_, rfl⟩⟩
    cases e with
    | initialized d result b =>
      obtain rfl := Option.some.inj hd
      simp [outcome?, hcall, CallPhase.initTicket?] at hnone
    | _ => rfl

/-- A destroy call that waits for loops returns once they have ended. -/
theorem perform_draining (hrun : (setSystem κ ξ).Run h s) (hall : allows h s e = true)
    (hd : e.caller? = some c) (hb : e.begins? = none) (hc : s.calls = [⟨c, .draining⟩]) :
    ∃ t turn, s.perform e = (t, .call turn) ∧ t.lifecycle = .terminated ∧ t.registry = [] ∧
      (t.calls = [] ∧ t.isQuiet = true ∧ turn = .returned (.ok ()) ∨
        t.calls = [⟨c, .draining⟩] ∧ turn = .wait) := by
  have ho := orderly_of_run hrun
  have hl : s.lifecycle = .terminated := ho.drains _ (hc ▸ List.mem_cons_self)
  have honly : ∀ {q : CallPhase κ ξ}, ⟨c, q⟩ ∈ s.calls → q = .draining := by
    intro q hq
    rw [hc] at hq
    exact (Call.mk.inj (List.mem_singleton.1 hq)).2
  obtain ⟨turn, hturn, hgives⟩ := gives_of_perform (sound_of_run hrun) hall hd
  have hquiet : turn = .returned (.ok ()) → (s.perform e).1.isQuiet = true := by
    intro hret
    refine (quiet_of_returned (c := c) (sound_of_run hrun) ho hall (fun p hp => ?_)
      ⟨hd, hturn.trans (congrArg _ hret)⟩).2
    rcases mem_entered hp with hp | ⟨d, request, b, rfl, -⟩
    · rw [honly hp]
      rfl
    · contradiction
  have hempty := empty_of_perform hrun hall
  refine ⟨(s.perform e).1, turn, Prod.ext rfl hturn, ?_⟩
  generalize (s.perform e).1 = t at hgives hquiet hempty
  cases hgives with
  | begins _ => contradiction
  | polls hp ht =>
    obtain rfl := Option.some.inj hd
    obtain rfl := honly hp
    obtain ⟨hl', hend⟩ := ht.draining rfl hc
    exact ⟨hl'.trans hl, hempty (hl'.trans hl),
      hend.symm.imp_left fun ⟨hc', hret⟩ => ⟨hc', hquiet hret, hret⟩⟩
  | misses _ _ => exact ⟨hl, hempty hl, .inr ⟨hc, rfl⟩⟩
  | _ hp _ =>
    obtain rfl := Option.some.inj hd
    cases honly hp

/-- What is no call's turn leaves the only call alone. -/
theorem calls_of_perform (hd : e.caller? = none) (hab : ∀ c, e ≠ .abandon c) :
    (s.perform e).1.calls = s.calls := by
  rcases desk_of_perform (s := s) hd with ⟨c, rfl⟩ | hdesk
  · exact absurd rfl (hab c)
  · exact (congrArg TaskSet.calls hdesk :)

/-- Without loops, who is registered is up to the calls and to the owner. -/
theorem registry_of_loops (hs : Sound (begun h) s) (hall : allows h s e = true)
    (hd : e.caller? = none) (hloops : s.loops = []) (hu : ∀ task, e ≠ .unregister task)
    (hdrop : e ≠ .drop) : (s.perform e).1.registry = s.registry := by
  cases e with
  | abandon c =>
    show (s.abandon c).registry = s.registry
    unfold abandon
    split
    · exact (alike_endCall s c).registry
    · rfl
  | unregister task => exact absurd rfl (hu task)
  | pollLoop l now => exact (goesOn_pollLoop hs l now).registry
  | ran l now ending =>
    obtain ⟨x, hx, -⟩ := allows_ran.1 hall
    simp [hloops] at hx
  | reported l poolName result => exact (goesOn_reported s l poolName result).registry
  | killLoop l => exact (goesOn_killLoop s l).registry
  | cancelRoot => exact (goesOn_cancelRoot s).registry
  | drop => exact absurd rfl hdrop
  | _ => contradiction

end Events

end TaskSet

end Overseer
