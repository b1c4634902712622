import Overseer.Proofs.Supervision.Aborted
import Overseer.Proofs.Supervision.Destruction
import Overseer.Proofs.Supervision.Prompt
import Overseer.Proofs.Supervision.Tokens

/-!
# Tasks that arrive after startup

A task that is registered once startup has been called is initialized before its registration
returns, and it has a loop as soon as the set has started. A set that was destroyed takes nobody in.

A set whose startup has failed does. A registration takes it for one that has yet to be started, so
it enters the task, does not initialize it, and succeeds, although the set will never start
(`answers_of_idle`). A task that is registered after a startup was abandoned is initialized, but
that set never starts either (`IsDoomed`). `arrival_of_run` says what a registration can rely on,
and `registered_after_failure` is a run in which it is let down.
-/

namespace Overseer

variable {κ ξ : Type}

/-- A request that brings a registration asks for it. -/
theorem Request.phase_of_registration {request : Request κ ξ} {c : CallId} {r : Registration κ ξ}
    (hr : (request.phase c).registration? = some r) :
    request.phase c = .admitting r ∧ request.kind = .register ∧ r.ticket = c := by
  cases request with
  | register task args options order extra =>
    obtain rfl := Option.some.inj hr
    exact ⟨rfl, rfl, rfl⟩
  | init => contradiction
  | destroy => contradiction

namespace TaskSet

variable {s t : TaskSet κ ξ} {c : CallId} {p q : CallPhase κ ξ} {turn : CallTurn}
  {h pre post : List (SetOccurrence κ ξ)} {o o' : SetOccurrence κ ξ} {e : SetEvent κ ξ}
  {request : Request κ ξ} {r : Registration κ ξ} {b : Bool}
  {result : Except SupervisionError Unit}

/-! ## The first turn -/

/-- The set in which a registration is considered: its call has the lifecycle lock. -/
def considering (s : TaskSet κ ξ) (r : Registration κ ξ) : TaskSet κ ξ :=
  (s.addCall r.ticket (.admitting r)).lockLifecycle r.ticket

/-- A registration is considered with its first turn, unless the set is terminated. -/
theorem perform_of_prompt (hrun : (setSystem κ ξ).Run h s)
    (hall : allows h s (.begin c request b) = true) (hl : s.lifecycle ≠ .terminated)
    (hr : (request.phase c).registration? = some r) : s.perform (.begin c request b) =
      (((s.considering r).consider c r).1, .call ((s.considering r).consider c r).2) := by
  have hs := sound_of_run hrun
  have hfree : s.lifecycleLock.holder = none := by
    cases hheld : s.lifecycleLock.holder with
    | none => rfl
    | some d =>
      have hwants := ((orderly_of_run hrun).lifecycle.mem d).1 (by simp [Lock.claimants, hheld])
      exact absurd hwants ((prompt_of_run hrun).lifecycle hl d)
  have hlock : (s.considering r).lifecycleLock.isHeldBy r.ticket = true := by
    simp [considering, addCall, lockLifecycle, Lock.acquire, Lock.isHeldBy, hfree]
  have hbegin : s.begin c request b = (s.considering r).poll c b := by
    cases request with
    | register task args options order extra =>
      obtain rfl := Option.some.inj hr
      rfl
    | init => contradiction
    | destroy => contradiction
  obtain ⟨-, -, rfl⟩ := Request.phase_of_registration hr
  have hcall : (s.considering r).call? r.ticket = some ⟨r.ticket, .admitting r⟩ :=
    call?_of_mem (hs.call?_of_new (allows_begin.1 hall).2) _
  have hpoll : (s.considering r).poll r.ticket b = (s.considering r).consider r.ticket r := by
    unfold poll
    simp only [hcall]
    rw [if_pos hlock]
  simp only [perform, hbegin, hpoll]

theorem refusal?_considering (s : TaskSet κ ξ) (r a : Registration κ ξ) :
    (s.considering r).refusal? a = s.refusal? a := rfl

/-- The call is answered with its first turn. The task is entered as it is, unless it is refused
for what is registered already. -/
def AnswersAtOnce (o : SetOccurrence κ ξ) (r : Registration κ ξ) : Prop :=
  match o.before.refusal? r with
  | some x => Returns o r.ticket (.error x) ∧
      ((setSystem κ ξ).after o).registry = o.before.registry
  | none => Returns o r.ticket (.ok ()) ∧
      ((setSystem κ ξ).after o).registry = o.before.registry.insert r

/-- A set that is not under way answers a registration at once. -/
theorem answers_of_idle (hrun : (setSystem κ ξ).Run h s)
    (hall : allows h s (.begin c request b) = true) (hl : s.lifecycle ≠ .terminated)
    (hidle : s.isUnderway = false) (hr : (request.phase c).registration? = some r) :
    AnswersAtOnce ⟨s, .begin c request b⟩ r := by
  obtain ⟨-, -, rfl⟩ := Request.phase_of_registration hr
  have hperform := perform_of_prompt hrun hall hl hr
  have hstarted : s.lifecycle ≠ .started := fun hst => by simp [isUnderway, hst] at hidle
  unfold AnswersAtOnce
  dsimp only
  cases href : s.refusal? r with
  | some x =>
    have hconsider : (s.considering r).consider r.ticket r =
        (s.considering r).finish r.ticket (.error x) := by
      simp [consider, refusal?_considering, href]
    rw [hconsider] at hperform
    refine ⟨⟨rfl, congrArg Prod.snd hperform⟩, ?_⟩
    show (s.perform _).1.registry = s.registry
    rw [hperform]
    exact (alike_endCall _ _).registry
  | none =>
    have hconsider : (s.considering r).consider r.ticket r =
        ((s.considering r).enroll r).finish r.ticket (.ok ()) := by
      have hidle' : (s.considering r).isUnderway = false := hidle
      simp [consider, refusal?_considering, href, hidle']
    rw [hconsider] at hperform
    refine ⟨⟨rfl, congrArg Prod.snd hperform⟩, ?_⟩
    show (s.perform _).1.registry = s.registry.insert r
    rw [hperform]
    refine (alike_endCall _ _).registry.trans ?_
    have hno : ((s.considering r).lifecycle == .started) = false := beq_false_of_ne hstarted
    show ((s.considering r).enroll r).registry = _
    unfold enroll
    dsimp only
    rw [if_neg (by simpa [record, notify] using hno)]
    rfl

/-- The call asks for the `init` of its task. -/
def AsksInit (o : SetOccurrence κ ξ) (r : Registration κ ξ) : Prop :=
  (o.before.perform o.event).2 = .call (.callInit r.task r.args)

/-- A set that is under way has the task initialized, or refuses it at once. -/
theorem asks_of_underway (hrun : (setSystem κ ξ).Run h s)
    (hall : allows h s (.begin c request b) = true) (hunder : s.isUnderway = true)
    (hr : (request.phase c).registration? = some r) :
    AsksInit ⟨s, .begin c request b⟩ r ∨
      (∃ x, Returns ⟨s, .begin c request b⟩ c (.error x)) ∧
        ∀ q, ⟨c, q⟩ ∉ (s.perform (.begin c request b)).1.calls := by
  have hl : s.lifecycle ≠ .terminated := fun hl => by simp [isUnderway, hl] at hunder
  have hperform := perform_of_prompt hrun hall hl hr
  cases href : s.refusal? r with
  | some x =>
    have hconsider : (s.considering r).consider c r =
        (s.considering r).finish c (.error x) := by
      simp [consider, refusal?_considering, href]
    rw [hconsider] at hperform
    refine .inr ⟨⟨x, rfl, congrArg Prod.snd hperform⟩, fun q hq => ?_⟩
    rw [hperform] at hq
    exact not_mem_without ((alike_endCall (s.considering r) c).calls ▸ hq)
  | none =>
    have hunder' : (s.considering r).isUnderway = true := hunder
    refine .inl ?_
    show (s.perform _).2 = _
    rw [hperform]
    simp [consider, refusal?_considering, href, hunder']

/-! ## Later turns -/

/-- A call that is over stays so. -/
theorem gone_since {k : CallKind} (hrun : (setSystem κ ξ).Run h s) (heq : h = pre ++ o :: post)
    (hbegan : Began (pre ++ [o]) c k)
    (hgone : ∀ q, ⟨c, q⟩ ∉ ((setSystem κ ξ).after o).calls) : ∀ q, ⟨c, q⟩ ∉ s.calls := by
  refine hrun.since (P := fun _ s => ∀ q, ⟨c, q⟩ ∉ s.calls) hgone
    (fun post s e hrun hall hgone q hq => ?_) heq
  have hbegan' : Began (pre ++ o :: post) c k := by simpa using hbegan.append post
  obtain ⟨d, hcourse, -⟩ := course_of_perform (sound_of_run hrun) hall
  obtain ⟨⟨d, p⟩, hx, hid, -, -⟩ := hcourse.continues _ hq
  obtain rfl : c = d := hid
  rcases mem_entered hx with hx | ⟨d, request, b, rfl, heq⟩
  · exact hgone p hx
  · obtain rfl := (Call.mk.inj heq).1
    have hall : allows (pre ++ o :: post) s (.begin c request b) = true := hall
    exact (allows_begin.1 hall).2 hbegan'.mem

/-- A call that returns in a later turn was in progress. -/
theorem mem_of_returned {k : CallKind} (hrun : (setSystem κ ξ).Run h s)
    (hall : allows h s e = true) (hbegan : Began h c k) (hret : Returns ⟨s, e⟩ c result) :
    ∃ q, ⟨c, q⟩ ∈ s.calls := by
  obtain ⟨hc, hanswer⟩ := hret
  obtain ⟨turn, hturn, hgives⟩ := gives_of_perform (sound_of_run hrun) hall hc
  have hreturned : turn = .returned result := SetAnswer.call.inj (hturn.symm.trans hanswer)
  generalize (s.perform e).1 = t at hgives
  cases hgives with
  | begins _ =>
    obtain rfl := Option.some.inj hc
    exact absurd hbegan.mem (allows_begin.1 hall).2
  | misses _ _ => contradiction
  | _ hp _ =>
    obtain rfl := Option.some.inj hc
    exact ⟨_, hp⟩

/-- A call whose task is being initialized waits for that. -/
theorem Takes.waits_of_initializing (ht : Takes c s p t turn) (hp : p = .initializing r) :
    turn = .wait := by
  induction ht with
  | waits s p => rfl
  | alike _ _ ih => exact ih hp
  | expires _ hk _ =>
    subst hp
    contradiction
  | enrolls hphase _ _ =>
    subst hp
    rcases hphase with ⟨hphase, -⟩ | hphase <;> contradiction
  | _ => contradiction

/-- A registration that succeeds in a later turn does so when its task has been initialized. -/
theorem comesBack_of_returned (hrun : (setSystem κ ξ).Run h s) (hall : allows h s e = true)
    (hl : s.lifecycle ≠ .terminated) (hbegan : Began h c .register)
    (hret : Returns ⟨s, e⟩ c (.ok ())) : ∃ b, e = .initialized c (.ok ()) b := by
  obtain ⟨hc, hanswer⟩ := hret
  have hkind : ∀ {p : CallPhase κ ξ}, ⟨c, p⟩ ∈ s.calls → p.kind = .register :=
    kind_of_began hrun hall (hbegan.append _)
  obtain ⟨turn, hturn, hgives⟩ := gives_of_perform (sound_of_run hrun) hall hc
  have hreturned : turn = .returned (.ok ()) := SetAnswer.call.inj (hturn.symm.trans hanswer)
  generalize (s.perform e).1 = t at hgives
  cases hgives with
  | begins _ =>
    obtain rfl := Option.some.inj hc
    exact absurd hbegan.mem (allows_begin.1 hall).2
  | @polls d p b _ _ hp ht =>
    obtain rfl := Option.some.inj hc
    have hfree : p.wantsLifecycle = false :=
      Bool.eq_false_iff.2 fun hw => (prompt_of_run hrun).lifecycle hl d ⟨p, hp, hw⟩
    have hregister := hkind hp
    cases p with
    | initializing r => cases (ht.waits_of_initializing rfl).symm.trans hreturned
    | queued => contradiction
    | preparing current rest => contradiction
    | _ => contradiction
  | @comesBack d r b _ _ _ _ =>
    obtain rfl := Option.some.inj hc
    exact ⟨b, rfl⟩
  | breaks _ _ => cases CallTurn.returned.inj hreturned
  | goesOn hp _ =>
    obtain rfl := Option.some.inj hc
    cases hkind hp
  | aborts hp _ =>
    obtain rfl := Option.some.inj hc
    cases hkind hp
  | misses _ _ => contradiction

/-! ## Sets that were destroyed -/

theorem terminated_of_perform (hrun : (setSystem κ ξ).Run h s) (hall : allows h s e = true)
    (hl : s.lifecycle = .terminated) : (s.perform e).1.lifecycle = .terminated := by
  obtain ⟨d, hcourse, -⟩ := course_of_perform (sound_of_run hrun) hall
  exact hcourse.terminated ((lifecycle_entered s e).trans hl)

theorem terminated_since (hrun : (setSystem κ ξ).Run h s) (heq : h = pre ++ o :: post)
    (hl : o.before.lifecycle = .terminated) : s.lifecycle = .terminated := by
  obtain ⟨hpre, hall, -⟩ := hrun.split heq
  exact hrun.since (P := fun _ s => s.lifecycle = .terminated) (terminated_of_perform hpre hall hl)
    (fun _ _ _ hrun hall hl => terminated_of_perform hrun hall hl) heq

/-- A terminated set lets no registration succeed. -/
theorem not_ok_of_terminated (hrun : (setSystem κ ξ).Run h s) (hall : allows h s e = true)
    (hl : s.lifecycle = .terminated) (hk : Began (h ++ [⟨s, e⟩]) c .register) :
    ¬Returns ⟨s, e⟩ c (.ok ()) := by
  intro hret
  obtain ⟨x, hperform, -, hends⟩ := turn_of_caller (sound_of_run hrun) hl hall hret.1
  have hreturned : x.2 = .returned (.ok ()) :=
    SetAnswer.call.inj ((congrArg Prod.snd hperform).symm.trans hret.2)
  obtain ⟨p, hp, hend⟩ := hends _ hreturned
  have hkind : p.kind = .register :=
    (kind_entered (kind_of_run hrun) ⟨c, p⟩ hp).unique (hrun.next hall) hk
  rcases hend.refused (by simp [hkind]) with hno | ⟨task, source, hno⟩ <;> contradiction

/-- A registration that begins in a terminated set is not let in. -/
theorem new_since (hrun : (setSystem κ ξ).Run h s) (heq : h = pre ++ o :: post)
    (hevent : o.event = .begin c request b) (hl : o.before.lifecycle = .terminated) :
    ∀ q, ⟨c, q⟩ ∈ s.calls → q.isNew = true := by
  have hstep : ∀ {h : List (SetOccurrence κ ξ)} {s : TaskSet κ ξ} {e : SetEvent κ ξ},
      (setSystem κ ξ).Run h s → allows h s e = true → s.lifecycle = .terminated →
      (∀ q, ⟨c, q⟩ ∈ s.calls → q.isNew = true) →
      ∀ q, ⟨c, q⟩ ∈ (s.perform e).1.calls → q.isNew = true := by
    intro h s e hrun hall hl hnew q hq
    obtain ⟨d, hcourse, -⟩ := course_of_perform (sound_of_run hrun) hall
    obtain ⟨⟨d, p⟩, hx, hqx⟩ := hcourse.continues _ hq
    refine hqx.isNew ((lifecycle_entered s e).trans hl) ?_
    rcases mem_entered hx with hx | ⟨d', request, b, -, hx⟩
    · obtain rfl : c = d := hqx.id
      exact hnew p hx
    · rw [hx]
      exact request.isNew_phase d'
  obtain ⟨hpre, hall, -⟩ := hrun.split heq
  refine (hrun.since (P := fun _ s => s.lifecycle = .terminated ∧
    ∀ q, ⟨c, q⟩ ∈ s.calls → q.isNew = true) ?_ (fun _ s e hrun hall hp => ?_) heq).2
  · refine ⟨terminated_of_perform hpre hall hl, hstep hpre hall hl fun q hq => ?_⟩
    have hall : allows pre o.before o.event = true := hall
    rw [hevent] at hall
    exact absurd ((sound_of_run hpre).calls _ hq) (allows_begin.1 hall).2
  · exact ⟨terminated_of_perform hrun hall hp.1, hstep hrun hall hp.1 hp.2⟩

/-- The occurrence gives the call nothing but the news that the set is terminated, and leaves the
registry alone. -/
structure IsRefusal (o : SetOccurrence κ ξ) (c : CallId) : Prop where
  result : ∀ result, Returns o c result → result = .error .terminated
  registry : o.event.caller? = some c →
    ((setSystem κ ξ).after o).registry = o.before.registry

theorem refusal_of_terminated (hrun : (setSystem κ ξ).Run h s) (hall : allows h s e = true)
    (hl : s.lifecycle = .terminated) (hk : Began (h ++ [⟨s, e⟩]) c .register)
    (hnew : ∀ q, ⟨c, q⟩ ∈ s.calls → q.isNew = true) : IsRefusal ⟨s, e⟩ c := by
  have hs := sound_of_run hrun
  refine ⟨fun result hret => ?_, fun _ => ?_⟩
  · obtain ⟨r, hperform, -, hends⟩ := turn_of_caller hs hl hall hret.1
    have hreturned : r.2 = .returned result :=
      SetAnswer.call.inj ((congrArg Prod.snd hperform).symm.trans hret.2)
    obtain ⟨p, hp, hend⟩ := hends result hreturned
    have hkind : p.kind = .register :=
      (kind_entered (kind_of_run hrun) ⟨c, p⟩ hp).unique (hrun.next hall) hk
    refine hend.terminated (by simp [hkind]) ?_
    rcases mem_entered hp with hp | ⟨d, request, b, -, hp⟩
    · exact hnew p hp
    · rw [(Call.mk.inj hp).2]
      exact request.isNew_phase d
  · obtain ⟨d, hcourse, -⟩ := course_of_perform hs hall
    have hempty := (hcourse.sound (hs.entered hall)).empty (terminated_of_perform hrun hall hl)
    show (s.perform e).1.registry = s.registry
    rw [hempty, hs.empty hl]

/-- When nothing can go on, a registration that came to a terminated set waits for a destroy call
that waits for loops. -/
theorem waits_of_terminated (hrun : (setSystem κ ξ).Run h s) {now : Nat} (hstill : IsStill s now)
    (hk : Began h c .register) (hc : ⟨c, q⟩ ∈ s.calls) (hnew : q.isNew = true) :
    s.isQuiet = false ∧ ∃ d, ⟨d, .draining⟩ ∈ s.calls := by
  have hkind : q.kind = .register := (kind_of_run hrun _ hc).unique hrun hk
  have hwants : q.wantsLifecycle = true := by
    cases q with
    | initializing r => simp [CallPhase.isNew, CallPhase.isLate] at hnew
    | queued => contradiction
    | preparing current rest => contradiction
    | _ => rfl
  obtain ⟨d, -, hd, hq⟩ := hstill.draining (orderly_of_run hrun) ⟨q, hc, hwants⟩
  exact ⟨hq, d, hd⟩

/-! ## Sets that never start -/

/-- Startup will not come to its end any more: it has failed or was abandoned, or the set is
terminated. -/
def IsDoomed (h : List (SetOccurrence κ ξ)) (s : TaskSet κ ξ) : Prop :=
  s.lifecycle = .aborted ∨ s.lifecycle = .terminated ∨ ∃ o ∈ h, AbandonsStartup o

/-- No startup is in progress in a set whose startup has failed, and there is no loop. -/
theorem failed_of_aborted (hrun : (setSystem κ ξ).Run h s) (hl : s.lifecycle = .aborted) :
    HasFailed s := by
  have hs := sound_of_run hrun
  refine ⟨⟨by simp [hl], fun x hx => Bool.eq_false_iff.2 fun hst => ?_⟩, ⟨by simp [hl], ?_⟩,
    .inl hl⟩
  · have hstarting := hs.starting x hx hst
    simp [hl] at hstarting
  · by_contra hne
    have hstarted := hs.idle hne
    simp [hl] at hstarted

/-- A set that is doomed never starts. -/
theorem IsDoomed.lasts (hrun : (setSystem κ ξ).Run h s) (heq : h = pre ++ o :: post)
    (hd : IsDoomed pre o.before) : s.lifecycle ≠ .started := by
  obtain ⟨hpre, hall, -⟩ := hrun.split heq
  rcases hd with hl | hl | ⟨o', ho', hab⟩
  · have hf : HasFailed s := by
      refine hrun.since (P := fun _ s => HasFailed s) ?_ (fun _ s e hrun hall hf => ?_) heq
      · exact ((failed_of_aborted hpre hl).perform (sound_of_run hpre) hall).collect
      · exact (hf.perform (sound_of_run hrun) hall).collect
    exact hf.unstarted.lifecycle
  · simp [terminated_since hrun heq hl]
  · have hl := unfinished_of_run hrun (heq ▸ List.mem_append_left _ ho') hab
    rcases hl with hl | hl <;> simp [hl]

/-! ## Registrations -/

/-- What the call is to register, if the occurrence begins it. -/
def arrival? (c : CallId) (o : SetOccurrence κ ξ) : Option (Registration κ ξ) :=
  match o.event with
  | .begin d request _ => if d = c then (request.phase c).registration? else none
  | _ => none

theorem begin_of_arrival? (ha : arrival? c o = some r) :
    ∃ request b, o.event = .begin c request b ∧ (request.phase c).registration? = some r := by
  unfold arrival? at ha
  split at ha
  · rename_i d request b hevent
    split at ha
    · rename_i hd
      exact ⟨request, b, hd ▸ hevent, ha⟩
    · contradiction
  · contradiction

/-- The call has asked for the `init` of its task with its first turn, and returns when that has
succeeded. -/
def Initializes (o o' : SetOccurrence κ ξ) (r : Registration κ ξ) : Prop :=
  AsksInit o r ∧ ∃ b, o'.event = .initialized r.ticket (.ok ()) b

/-- A registration that succeeds once startup has been called has had its task initialized, unless
startup had failed when it began. -/
theorem initializes_of_returned (hrun : (setSystem κ ξ).Run h s) (heq : h = pre ++ o :: post)
    (hopened : ∃ d, Began pre d .init) (ha : arrival? c o = some r) (ho' : o' ∈ o :: post)
    (hret : Returns o' c (.ok ())) : o.before.lifecycle = .aborted ∨ Initializes o o' r := by
  obtain ⟨request, b, hevent, hr⟩ := begin_of_arrival? ha
  unfold Initializes
  rw [(Request.phase_of_registration hr).2.2]
  obtain ⟨s', e⟩ := o
  obtain rfl : e = .begin c request b := hevent
  obtain ⟨hpre, hall, -⟩ := hrun.split heq
  have hbegan : Began (pre ++ [⟨s', .begin c request b⟩]) c .register :=
    (Request.phase_of_registration hr).2.1 ▸ began_begin pre s' c request b
  have hlater : ∀ {mid rest}, post = mid ++ o' :: rest →
      (setSystem κ ξ).Run (pre ++ ⟨s', .begin c request b⟩ :: mid) o'.before ∧
        allows (pre ++ ⟨s', .begin c request b⟩ :: mid) o'.before o'.event = true ∧
        Began (pre ++ ⟨s', .begin c request b⟩ :: mid) c .register := by
    rintro mid rest rfl
    have heq' : h = (pre ++ ⟨s', .begin c request b⟩ :: mid) ++ o' :: rest := by simpa using heq
    obtain ⟨hmid, hall', -⟩ := hrun.split heq'
    exact ⟨hmid, hall', by simpa using hbegan.append mid⟩
  have hunderway : s'.isUnderway = true →
      AsksInit ⟨s', .begin c request b⟩ r ∧ ∃ b, o'.event = .initialized c (.ok ()) b := by
    intro hunder
    rcases asks_of_underway hpre hall hunder hr with hasks | ⟨⟨x, hrefused⟩, hgone⟩
    · refine ⟨hasks, ?_⟩
      rcases List.mem_cons.1 ho' with rfl | hnew
      · cases hasks.symm.trans hret.2
      · obtain ⟨mid, rest, hsplit⟩ := List.append_of_mem hnew
        obtain ⟨hmid, hall', hbegan'⟩ := hlater hsplit
        refine comesBack_of_returned hmid hall' (fun hl => ?_) hbegan' hret
        exact not_ok_of_terminated hmid hall' hl (hbegan'.append _) hret
    · rcases List.mem_cons.1 ho' with rfl | hnew
      · cases hrefused.2.symm.trans hret.2
      · obtain ⟨mid, rest, hsplit⟩ := List.append_of_mem hnew
        obtain ⟨hmid, hall', hbegan'⟩ := hlater hsplit
        obtain ⟨q, hq⟩ := mem_of_returned hmid hall' hbegan' hret
        exact absurd hq (gone_since hmid rfl hbegan hgone q)
  have hl : s'.lifecycle ≠ .pending := hopened.elim fun _ hd => opened_of_began hpre hd
  show s'.lifecycle = .aborted ∨ _
  cases hlc : s'.lifecycle with
  | pending => exact absurd hlc hl
  | starting => exact .inr (hunderway (by simp [isUnderway, hlc]))
  | started => exact .inr (hunderway (by simp [isUnderway, hlc]))
  | aborted => exact .inl rfl
  | terminated =>
    refine absurd hret ?_
    rcases List.mem_cons.1 ho' with rfl | hnew
    · exact not_ok_of_terminated hpre hall hlc hbegan
    · obtain ⟨mid, rest, hsplit⟩ := List.append_of_mem hnew
      obtain ⟨hmid, hall', hbegan'⟩ := hlater hsplit
      exact not_ok_of_terminated hmid hall' (terminated_since hmid rfl hlc) (hbegan'.append _)

/-- A registration that begins once startup has been called succeeds only with its task initialized,
unless startup had failed. If the set has started, what is registered of the task has a loop. A set
whose startup has failed or was abandoned never starts, and neither does one that was destroyed.
That one refuses the registration, which returns unless a destroy call waits for loops. But a set
whose startup has failed enters the task if nothing else is in the way. -/
theorem arrival_of_run (hrun : (setSystem κ ξ).Run h s) (heq : h = pre ++ o :: post)
    (hopened : ∃ d, Began pre d .init) (ha : arrival? c o = some r) :
    (∀ o' ∈ o :: post, Returns o' c (.ok ()) →
      (Initializes o o' r ↔ o.before.lifecycle ≠ .aborted)) ∧
    (s.lifecycle = .started → ∀ a ∈ s.registry, a.task = r.task → HasLoop (killed h) s a) ∧
    (IsDoomed pre o.before → s.lifecycle ≠ .started) ∧
    (o.before.lifecycle = .terminated → (∀ o' ∈ o :: post, IsRefusal o' c) ∧
      ∀ now, IsStill s now → ∀ q, ⟨c, q⟩ ∈ s.calls →
        s.isQuiet = false ∧ ∃ d, ⟨d, .draining⟩ ∈ s.calls) ∧
    (o.before.lifecycle = .aborted → AnswersAtOnce o r) := by
  obtain ⟨request, b, hevent, hr⟩ := begin_of_arrival? ha
  obtain ⟨hpre, hall, -⟩ := hrun.split heq
  have hbegan : Began (pre ++ [o]) c .register :=
    ⟨o, List.mem_append_right _ (List.mem_singleton_self _), request, b, hevent,
      (Request.phase_of_registration hr).2.1⟩
  have hanswers : o.before.lifecycle = .aborted → AnswersAtOnce o r := by
    intro hl
    obtain ⟨s', e⟩ := o
    obtain rfl : e = .begin c request b := hevent
    have hl : s'.lifecycle = .aborted := hl
    exact answers_of_idle hpre hall (by simp [hl]) (by simp [isUnderway, hl]) hr
  refine ⟨fun o' ho' hret => ⟨fun hinit hl => ?_, fun hl => ?_⟩, fun hl a hmem _ => ?_,
    IsDoomed.lasts hrun heq, fun hl => ⟨fun o' ho' => ?_, fun now hstill q hq => ?_⟩, hanswers⟩
  · -- what is answered at once has not asked for anything
    have hasks := hinit.1
    have hatonce := hanswers hl
    unfold AnswersAtOnce at hatonce
    split at hatonce
    · cases hasks.symm.trans hatonce.1.2
    · cases hasks.symm.trans hatonce.1.2
  · exact (initializes_of_returned hrun heq hopened ha ho' hret).resolve_left hl
  · exact hasLoop_of_started hrun hl hmem
  · rcases List.mem_cons.1 ho' with rfl | hnew
    · refine refusal_of_terminated hpre hall hl hbegan fun q hq => ?_
      have hall : allows pre o'.before o'.event = true := hall
      rw [hevent] at hall
      exact absurd ((sound_of_run hpre).calls _ hq) (allows_begin.1 hall).2
    · obtain ⟨mid, rest, rfl⟩ := List.append_of_mem hnew
      have heq' : h = (pre ++ o :: mid) ++ o' :: rest := by simpa using heq
      obtain ⟨hmid, hall', -⟩ := hrun.split heq'
      have hbegan' : Began ((pre ++ o :: mid) ++ [o']) c .register := by
        simpa using hbegan.append (mid ++ [o'])
      exact refusal_of_terminated hmid hall' (terminated_since hmid rfl hl) hbegan'
        (new_since hmid rfl hevent hl)
  · have hbegan' : Began h c .register := by simpa [heq] using hbegan.append post
    exact waits_of_terminated hrun hstill hbegan' hq (new_since hrun heq hevent hl q hq)

/-- A task is registered while startup initializes another, and both are polled in the end. -/
theorem arrival_of_run_midway : ∃ (h : List (SetOccurrence Unit Unit)) (s : TaskSet Unit Unit)
    (pre post : List (SetOccurrence Unit Unit)) (o : SetOccurrence Unit Unit)
    (r : Registration Unit Unit), (setSystem Unit Unit).Run h s ∧ h = pre ++ o :: post ∧
    (∃ d, Began pre d .init) ∧ arrival? 2 o = some r ∧ (∃ o' ∈ post, Returns o' 2 (.ok ())) ∧
    s.lifecycle = .started ∧ 2 ∈ s.tickets ∧
    (∀ o' ∈ o :: post, Returns o' 2 (.ok ()) →
      (Initializes o o' r ↔ o.before.lifecycle ≠ .aborted)) ∧
    (s.lifecycle = .started → ∀ a ∈ s.registry, a.task = r.task → HasLoop (killed h) s a) ∧
    (IsDoomed pre o.before → s.lifecycle ≠ .started) ∧
    (o.before.lifecycle = .terminated → (∀ o' ∈ o :: post, IsRefusal o' 2) ∧
      ∀ now, IsStill s now → ∀ q, ⟨2, q⟩ ∈ s.calls →
        s.isQuiet = false ∧ ∃ d, ⟨d, .draining⟩ ∈ s.calls) ∧
    (o.before.lifecycle = .aborted → AnswersAtOnce o r) := by
  obtain ⟨h, s, hrun, hcheck⟩ := System.exists_run_of_replay (S := setSystem Unit Unit)
    (starts_new "s" none)
    [.begin 0 (.register ⟨0, "a"⟩ [] {} none ()) false, .begin 1 .init false,
      .begin 2 (.register ⟨1, "b"⟩ [] {} none ()) false, .initialized 2 (.ok ()) false,
      .initialized 1 (.ok ()) false]
    (fun h s => decide (Began (h.take 2) 1 .init) && ((h[2]?).any fun o =>
      (arrival? 2 o).isSome) && ((h.drop 3).any fun o => decide (Returns o 2 (.ok ()))) &&
        s.lifecycle == .started && s.tickets.contains 2)
    (by decide +kernel)
  simp only [Bool.and_eq_true, decide_eq_true_eq, beq_iff_eq, Option.any_eq_true,
    List.any_eq_true, List.contains_iff_mem, Option.isSome_iff_exists] at hcheck
  obtain ⟨⟨⟨⟨hbegan, o, ho, r, ha⟩, hret⟩, hl⟩, hin⟩ := hcheck
  have hsplit : h = h.take 2 ++ o :: h.drop 3 := by
    obtain ⟨hi, rfl⟩ := List.getElem?_eq_some_iff.1 ho
    simp
  exact ⟨h, s, h.take 2, h.drop 3, o, r, hrun, hsplit, ⟨1, hbegan⟩, ha, hret, hl, hin,
    arrival_of_run hrun hsplit ⟨1, hbegan⟩ ha⟩

/-- Startup fails, and then a task is registered. It is not initialized, and the registration
succeeds. -/
theorem registered_after_failure : ¬ ∀ (h : List (SetOccurrence Unit Unit))
    (s : TaskSet Unit Unit) (pre post : List (SetOccurrence Unit Unit))
    (o o' : SetOccurrence Unit Unit) (c : CallId) (r : Registration Unit Unit),
    (setSystem Unit Unit).Run h s → h = pre ++ o :: post → (∃ d, Began pre d .init) →
    arrival? c o = some r → o' ∈ o :: post → Returns o' c (.ok ()) → c ∈ completed h := by
  intro hclaim
  obtain ⟨h, s, hrun, hcheck⟩ := System.exists_run_of_replay (S := setSystem Unit Unit)
    (starts_new "s" none)
    [.begin 0 (.register ⟨0, "a"⟩ [] {} none ()) false, .begin 1 .init false,
      .initialized 1 (.error ⟨"no", []⟩) false,
      .begin 2 (.register ⟨1, "b"⟩ [] {} none ()) false]
    (fun h _ => decide (Began (h.take 3) 1 .init) && ((h[3]?).any fun o =>
      (arrival? 2 o).isSome && decide (Returns o 2 (.ok ()))) && !(completed h).contains 2)
    (by decide +kernel)
  simp only [Bool.and_eq_true, decide_eq_true_eq, Option.any_eq_true, Bool.not_eq_true',
    Option.isSome_iff_exists] at hcheck
  obtain ⟨⟨hbegan, o, ho, ⟨r, ha⟩, hret⟩, hnot⟩ := hcheck
  have hsplit : h = h.take 3 ++ o :: h.drop 4 := by
    obtain ⟨hi, rfl⟩ := List.getElem?_eq_some_iff.1 ho
    simp
  have hin := hclaim h s _ _ o o 2 r hrun hsplit ⟨1, hbegan⟩ ha List.mem_cons_self hret
  simp [hin] at hnot

end TaskSet

end Overseer
