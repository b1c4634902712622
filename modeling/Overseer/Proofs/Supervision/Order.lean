import Overseer.Proofs.Supervision.Entrance
import Overseer.Proofs.Supervision.Schedule
import Overseer.Proofs.Supervision.Started

/-!
# The order of startup and the order of visits

A set visits its tasks in the order of its registry, and that is sorted after any history
(`isSorted_of_run`). Startup goes by the schedule that it reads off the registry when it is the
first to look at the set (`Opens`). If it comes to its end it has initialized just that
(`inits_of_succeeded`).

So `order_of_startup` compares the two orders for a startup during which nothing else comes into
the set or leaves it (`Calm`). What has no priority is initialized last, but it is visited as if
its priority were `RegisterOptions.defaultPriority`. The orders are the same exactly if nothing
without a priority is visited before something that has one, and `visited_before_initialized` is a
set in which that is not so.
-/

namespace Overseer

variable {κ ξ : Type}

/-- The priorities for which a request asks are a set. -/
def Request.IsProper : Request κ ξ → Prop
  | .register _ _ options _ _ => options.IsProper
  | _ => True

instance : (request : Request κ ξ) → Decidable request.IsProper
  | .register _ _ options _ _ => inferInstanceAs (Decidable options.IsProper)
  | .init => inferInstanceAs (Decidable True)
  | .destroy => inferInstanceAs (Decidable True)

namespace TaskSet

variable {s t : TaskSet κ ξ} {c : CallId} {p : CallPhase κ ξ} {turn : CallTurn} {d : Option Deed}
  {h pre post : List (SetOccurrence κ ξ)} {o : SetOccurrence κ ξ} {e : SetEvent κ ξ}

/-! ## The registry is sorted -/

/-- Every registration of the history asks for a set of priorities. -/
def OfProper (h : List (SetOccurrence κ ξ)) : Prop :=
  ∀ o ∈ h, ∀ request ∈ o.event.request?, request.IsProper

instance : Decidable (OfProper h) :=
  inferInstanceAs (Decidable (∀ o ∈ h, ∀ request ∈ o.event.request?, request.IsProper))

/-- Tasks are visited by ascending key after any history. -/
theorem isSorted_of_run (hrun : (setSystem κ ξ).Run h s) : s.registry.IsSorted :=
  (lined_of_run hrun).registry.imp fun hab => hab.elim Nat.le_of_lt fun hab => Nat.le_of_eq hab.1

theorem isProper_of_run (hrun : (setSystem κ ξ).Run h s) (hproper : OfProper h) :
    s.registry.IsProper := by
  intro r hr
  obtain ⟨o, ho, b, hevent⟩ := (requested_of_run hrun).registered r hr
  exact hproper o ho r.origin.2 (by rw [hevent]; rfl)

/-! ## Who opens the set -/

/-- With this occurrence the call is the first to look at the set, and goes on to start it. -/
def Opens (c : CallId) (o : SetOccurrence κ ξ) : Prop :=
  o.event.caller? = some c ∧ o.before.lifecycle = .pending ∧
    ((setSystem κ ξ).after o).lifecycle ≠ .pending

instance : Decidable (Opens c o) := inferInstanceAs (Decidable (_ ∧ _ ∧ _))

/-- A set is pending once. -/
theorem Move.opened (hm : Move s d t) (hl : s.lifecycle ≠ .pending) : t.lifecycle ≠ .pending := by
  cases hm with
  | goesOn hgo => exact hgo.lifecycle.trans_ne hl
  | opens hc hpending => exact absurd hpending hl
  | starts b hc _ =>
    rw [(startLoops_same _ _).1]
    simp [without]
  | givesUp hc _ => simp [without]
  | enrolls hc hp hr => exact (enroll_same _ _ _).1.trans_ne hl
  | refuses hc hgo => exact hgo.lifecycle.trans_ne hl
  | removes _ _ _ _ hgo _ => exact hgo.lifecycle.trans_ne hl
  | displaces _ _ _ hgo => exact hgo.lifecycle.trans_ne hl
  | demolishes hgo _ => exact hgo.lifecycle.trans_ne (by simp)
  | drops _ hgo _ => exact hgo.lifecycle.trans_ne hl
  | _ => exact hl

theorem opened_of_run (hrun : (setSystem κ ξ).Run h s) (heq : h = pre ++ o :: post)
    (hl : ((setSystem κ ξ).after o).lifecycle ≠ .pending) : s.lifecycle ≠ .pending := by
  refine hrun.since (P := fun _ s => s.lifecycle ≠ .pending) hl
    (fun _ s e hrun hall hl => ?_) heq
  obtain ⟨d, hcourse, -⟩ := course_of_perform (sound_of_run hrun) hall
  exact hcourse.keeps (P := fun s => s.lifecycle ≠ .pending) Move.opened
    ((lifecycle_entered s e).trans_ne hl)

/-- A snapshot is what the schedule was when the set was opened. -/
theorem Snapshot.eq {snapshot : List Entry} (hsnap : Snapshot h c snapshot)
    (hrun : (setSystem κ ξ).Run h s) (heq : h = pre ++ o :: post) (hopens : Opens c o) :
    snapshot = o.before.registry.schedule := by
  obtain ⟨o', ho', -, hpending, hopened, rfl⟩ := hsnap
  rw [heq] at ho'
  rcases List.mem_append.1 ho' with ho' | ho'
  · obtain ⟨a, b, rfl⟩ := List.append_of_mem ho'
    exact absurd hopens.2.1 (opened_of_run (hrun.split heq).1 rfl hopened)
  · rcases List.mem_cons.1 ho' with rfl | ho'
    · rfl
    · obtain ⟨a, b, rfl⟩ := List.append_of_mem ho'
      have hlater : h = (pre ++ o :: a) ++ o' :: b := by simp [heq]
      exact absurd hpending (opened_of_run (hrun.split hlater).1 rfl hopens.2.2)

/-! ## Turns of startup -/

/-- A call that opens the set, or has opened it, is starting it from then on. -/
theorem Takes.inStartup (ht : Takes c s p t turn) (hk : p.kind = .init)
    (hone : ∀ q, ⟨c, q⟩ ∈ s.calls → q = p)
    (hst : p.isStartup = true ∨ s.lifecycle = .pending ∧ t.lifecycle ≠ .pending) :
    ∀ q, ⟨c, q⟩ ∈ t.calls → q.isStartup = true := by
  induction ht with
  | waits s p =>
    intro q hq
    rw [hone q hq]
    exact hst.resolve_right fun h => h.2 h.1
  | alike ha _ ih => exact ih hk (fun q hq => hone q (ha.calls ▸ hq)) (ha.lifecycle ▸ hst)
  | unqueues _ _ ih =>
    exact ih rfl (fun q hq => phase_of_mem_setPhase hq) (.inr (hst.resolve_left nofun))
  | @opens s t turn _ _ ih =>
    exact ih (CallPhase.kind_before _)
      (fun q hq => phase_of_mem_setPhase (s := { s with lifecycle := .starting }) hq)
      (.inl (CallPhase.isStartup_before _))
  | prepares _ ht =>
    intro q hq
    rw [ht.calls] at hq
    rw [phase_of_mem_setPhase hq]
    rfl
  | starts b _ ht =>
    intro q hq
    rw [ht.calls, launched, (startLoops_same _ _).2.1] at hq
    exact absurd hq not_mem_without
  | passes _ ht => exact not_mem_over ht
  | fails _ ht => exact not_mem_over ht
  | expires _ _ ht => exact not_mem_over ht
  | givesUp ht => exact not_mem_over ht
  | enrolls hphase _ _ => rcases hphase with ⟨rfl, -⟩ | rfl <;> contradiction
  | _ => contradiction

/-- Startup takes nothing in and puts nothing out. -/
theorem Takes.stays (ht : Takes c s p t turn) (hk : p.kind = .init) : t.stays = s.stays := by
  induction ht with
  | waits s p => rfl
  | alike ha _ ih => exact (ih hk).trans ha.goesOn.stays
  | unqueues _ _ ih => exact ih rfl
  | opens _ _ ih => exact ih (CallPhase.kind_before _)
  | passes _ ht => exact ht.goesOn.stays
  | fails _ ht => exact ht.goesOn.stays
  | expires _ _ ht => exact ht.goesOn.stays
  | prepares _ ht => exact ht.goesOn.stays
  | starts b _ ht => exact ht.goesOn.stays.trans (startLoops_same _ _).2.2.1
  | givesUp ht =>
    refine ht.goesOn.stays.trans ?_
    unfold givenUp
    split <;> rfl
  | enrolls hphase _ _ => rcases hphase with ⟨rfl, -⟩ | rfl <;> contradiction
  | _ => contradiction

/-- A startup that succeeds after it has opened the set has initialized its whole snapshot, and
is over. -/
theorem Takes.concludes {snapshot : List Entry} {inits : List CallId}
    {outcomes : List (CallId × Except Fault Unit)} (ht : Takes c s p t turn) (hk : p.kind = .init)
    (hret : turn = .returned (.ok ())) (hst : p.isStartup = true ∨ s.lifecycle = .pending)
    (hopen : p.isStartup = false → snapshot = s.registry.schedule)
    (hl : Ledger snapshot p inits outcomes) :
    inits = snapshot.map (·.ticket) ∧ ∀ q, ⟨c, q⟩ ∉ t.calls := by
  induction ht with
  | alike ha _ ih =>
    exact ih hk hret (ha.lifecycle ▸ hst) (fun hno => ha.registry ▸ hopen hno) hl
  | unqueues _ _ ih =>
    cases hl
    exact ih rfl hret (.inr (hst.resolve_left Bool.false_ne_true)) (fun _ => hopen rfl) .opening
  | opens _ _ ih =>
    cases hl
    obtain rfl := hopen rfl
    exact ih (CallPhase.kind_before _) hret (.inl (CallPhase.isStartup_before _))
      (fun hno => by simp at hno) (ledger_before (List.nil_append _).symm)
  | passes hno _ =>
    have hpending := hst.resolve_left Bool.false_ne_true
    simp [hpending] at hno
  | starts b _ ht =>
    cases hl
    refine ⟨rfl, fun q hq => ?_⟩
    rw [ht.calls, launched, (startLoops_same _ _).2.1] at hq
    exact not_mem_without hq
  | fails _ _ => cases hret
  | expires _ _ _ => cases hret
  | givesUp _ => cases hret
  | enrolls hphase _ _ => rcases hphase with ⟨rfl, -⟩ | rfl <;> contradiction
  | _ => contradiction

/-! ## Histories of startup -/

/-- The startup `c` takes its turn from `u`, in phase `p`, when an event finds the set `s`. -/
structure Resumes (h : List (SetOccurrence κ ξ)) (c : CallId) (s u : TaskSet κ ξ)
    (p : CallPhase κ ξ) : Prop where
  stays : u.stays = s.stays
  lifecycle : u.lifecycle = s.lifecycle
  kind : p.kind = .init
  only : ∀ q, ⟨c, q⟩ ∈ u.calls → q = p
  booked : ∃ outcomes, Booked h c p outcomes
  /-- A startup that has not opened the set yet has been waiting, or is new. -/
  waiting : p.isStartup = false → u.registry = s.registry ∧ (⟨c, p⟩ ∈ s.calls ∨ c ∉ begun h)

/-- What a startup does with its turn. -/
theorem resumes_of_turn (hrun : (setSystem κ ξ).Run h s) (hall : allows h s e = true)
    (hbegan : Began (h ++ [⟨s, e⟩]) c .init) (hc : e.caller? = some c) :
    ∃ turn, (s.perform e).2 = .call turn ∧
      ((∃ u p, Resumes h c s u p ∧ Takes c u p (s.perform e).1 turn) ∨
        (s.perform e).1 = s ∧ turn = .wait) := by
  have ho := orderly_of_run hrun
  have hold : ∀ {p : CallPhase κ ξ}, ⟨c, p⟩ ∈ s.calls → p.kind = .init :=
    kind_of_began hrun hall hbegan
  have hbooked : ∀ {p : CallPhase κ ξ}, ⟨c, p⟩ ∈ s.calls → Booked h c p (outcomesFor c h) :=
    fun hp => booked_of_run hrun _ hp (hold hp)
  obtain ⟨turn, hturn, hgives⟩ := gives_of_perform (sound_of_run hrun) hall hc
  refine ⟨turn, hturn, ?_⟩
  generalize (s.perform e).1 = t at hgives
  cases hgives with
  | @begins d request b _ _ ht =>
    obtain rfl := Option.some.inj hc
    have hkind := kind_of_begin hrun hall hbegan
    obtain ⟨hb, hone⟩ := booked_begin hrun hall hkind
    refine .inl ⟨_, _, ⟨?_, ?_, (request.kind_phase d).trans hkind, hone, ⟨_, hb⟩, ?_⟩, ht⟩
    · rfl
    · rfl
    · exact fun _ => ⟨rfl, .inr (allows_begin.1 hall).2⟩
  | @polls d p b _ _ hp ht =>
    obtain rfl := Option.some.inj hc
    exact .inl ⟨_, _, ⟨rfl, rfl, hold hp, fun q hq => ho.phase_eq hq hp, ⟨_, hbooked hp⟩,
      fun _ => ⟨rfl, .inl hp⟩⟩, ht⟩
  | comesBack hp _ =>
    obtain rfl := Option.some.inj hc
    cases hold hp
  | breaks hp _ =>
    obtain rfl := Option.some.inj hc
    cases hold hp
  | @goesOn d current rest b _ _ hp ht =>
    obtain rfl := Option.some.inj hc
    obtain ⟨snapshot, hsnap, hl⟩ := hbooked hp
    refine .inl ⟨_, _, ⟨?_, ?_, CallPhase.kind_before _, fun q hq => ?_,
      ⟨_, snapshot, fun _ => hsnap rfl, hl.succeeds⟩, fun hno => by simp at hno⟩, ht⟩
    · exact (Move.marks s current.task.id).quiet.1
    · rfl
    · exact phase_of_mem_setPhase hq
  | @aborts d current rest source b _ _ hp ht =>
    obtain rfl := Option.some.inj hc
    obtain ⟨snapshot, hsnap, hl⟩ := hbooked hp
    refine .inl ⟨_, _, ⟨?_, ?_, rfl, fun q hq => ?_,
      ⟨_, snapshot, fun _ => hsnap rfl, hl.fails source⟩, nofun⟩, ht⟩
    · rfl
    · rfl
    · exact phase_of_mem_setPhase hq
  | misses _ _ => exact .inr ⟨rfl, rfl⟩

/-- The call has opened the set, or opens it with the next occurrence. -/
def IsOpening (h : List (SetOccurrence κ ξ)) (c : CallId) (o : SetOccurrence κ ξ) : Prop :=
  (c ∈ begun h ∧ ∀ q, ⟨c, q⟩ ∈ o.before.calls → q.isStartup = true) ∨ Opens c o

/-- A startup that has opened the set has its first look at it behind it. -/
theorem Resumes.opened {u : TaskSet κ ξ} (hr : Resumes h c s u p)
    (hopening : IsOpening h c ⟨s, e⟩) : p.isStartup = true ∨ Opens c ⟨s, e⟩ := by
  refine hopening.imp_left fun ⟨hbegun, hst⟩ => ?_
  cases hp : p.isStartup with
  | true => rfl
  | false =>
    rcases (hr.waiting hp).2 with hmem | hnew
    · rw [← hp, hst p hmem]
    · exact absurd hbegun hnew

theorem isStartup_of_perform (hrun : (setSystem κ ξ).Run h s) (hall : allows h s e = true)
    (hbegan : Began (h ++ [⟨s, e⟩]) c .init) (hopening : IsOpening h c ⟨s, e⟩) :
    ∀ q, ⟨c, q⟩ ∈ (s.perform e).1.calls → q.isStartup = true := by
  by_cases hc : e.caller? = some c
  · obtain ⟨turn, -, ⟨u, p, hr, ht⟩ | ⟨heq, -⟩⟩ := resumes_of_turn hrun hall hbegan hc
    · refine ht.inStartup hr.kind hr.only ((hr.opened hopening).imp_right fun hopens => ?_)
      exact ⟨hr.lifecycle.trans hopens.2.1, hopens.2.2⟩
    · rcases hopening with ⟨-, hst⟩ | ⟨-, hpending, hopened⟩
      · rw [heq]
        exact hst
      · refine absurd ?_ hopened
        show (s.perform e).1.lifecycle = .pending
        rw [heq]
        exact hpending
  · rcases hopening with ⟨-, hst⟩ | ⟨hc', -⟩
    · exact fun q hq => hst q (mem_calls_of_other (sound_of_run hrun) hall hq hc)
    · exact absurd hc' hc

/-- A call that has opened the set is past its first look from then on. -/
theorem startup_of_opens (hrun : (setSystem κ ξ).Run h s) (heq : h = pre ++ o :: post)
    (hbegan : Began (pre ++ [o]) c .init) (hopens : Opens c o) :
    ∀ q, ⟨c, q⟩ ∈ s.calls → q.isStartup = true := by
  obtain ⟨hpre, hall, -⟩ := hrun.split heq
  refine hrun.since (P := fun _ s => ∀ q, ⟨c, q⟩ ∈ s.calls → q.isStartup = true)
    (isStartup_of_perform hpre hall hbegan (.inr hopens)) (fun post s e hrun hall hst => ?_) heq
  have hbegan' : Began (pre ++ o :: post) c .init := by simpa using hbegan.append post
  exact isStartup_of_perform hrun hall (hbegan'.append _) (.inl ⟨hbegan'.mem, hst⟩)

/-- A startup that has opened the set and succeeds has initialized just what it has found
registered, in the order of its schedule. -/
theorem inits_of_succeeded (hrun : (setSystem κ ξ).Run h s) (hall : allows h s e = true)
    (hbegan : Began (h ++ [⟨s, e⟩]) c .init) (hopening : IsOpening h c ⟨s, e⟩)
    (hret : Returns ⟨s, e⟩ c (.ok ())) : (∀ q, ⟨c, q⟩ ∉ (s.perform e).1.calls) ∧
      ∃ snapshot, Snapshot (h ++ [⟨s, e⟩]) c snapshot ∧
        initsBy c (h ++ [⟨s, e⟩]) = snapshot.map (·.ticket) := by
  obtain ⟨hc, hanswer⟩ := hret
  obtain ⟨turn, hturn, ⟨u, p, hr, ht⟩ | ⟨-, hwait⟩⟩ := resumes_of_turn hrun hall hbegan hc
  · have hreturned : turn = .returned (.ok ()) := SetAnswer.call.inj (hturn.symm.trans hanswer)
    obtain ⟨outcomes, snapshot, hsnap, hl⟩ := hr.booked
    have hopened := hr.opened hopening
    have hst : p.isStartup = true ∨ u.lifecycle = .pending :=
      hopened.imp_right fun hopens => hr.lifecycle.trans hopens.2.1
    -- the snapshot is in the books already, or the call takes it now
    obtain ⟨snapshot, hsnap, hl, hfresh⟩ : ∃ snapshot, Snapshot (h ++ [⟨s, e⟩]) c snapshot ∧
        Ledger snapshot p (initsBy c h) outcomes ∧
        (p.isStartup = false → snapshot = u.registry.schedule) := by
      cases hp : p.isStartup with
      | true => exact ⟨snapshot, (hsnap hp).append _, hl, nofun⟩
      | false =>
        have hopens := hopened.resolve_left (by simp [hp])
        refine ⟨s.registry.schedule, ⟨_, by simp, hopens.1, hopens.2.1, hopens.2.2, rfl⟩,
          hl.unopened hp, fun _ => by rw [(hr.waiting hp).1]⟩
    obtain ⟨hinits, hgone⟩ := ht.concludes hr.kind hreturned hst hfresh hl
    refine ⟨hgone, snapshot, hsnap, ?_⟩
    rw [initsBy_append, initBy?_eq_none hgone, hinits]
    simp
  · rw [hwait] at hturn
    cases hturn.symm.trans hanswer

/-- What a startup that has opened the set has begun to initialize is always a first part of the
schedule that it has found. -/
theorem initsBy_of_opens (hrun : (setSystem κ ξ).Run h s) (heq : h = pre ++ o :: post)
    (hbegan : Began (pre ++ [o]) c .init) (hopens : Opens c o) (hnew : initsBy c pre = []) :
    initsBy c h <+: o.before.registry.schedule.map (·.ticket) := by
  -- a call that is no longer in progress begins nothing, and one that is keeps its ledger
  have hstep : ∀ {h post : List (SetOccurrence κ ξ)} {s : TaskSet κ ξ} {e : SetEvent κ ξ},
      (setSystem κ ξ).Run h s → allows h s e = true → h ++ [⟨s, e⟩] = pre ++ o :: post →
      initsBy c h <+: o.before.registry.schedule.map (·.ticket) →
      initsBy c (h ++ [⟨s, e⟩]) <+: o.before.registry.schedule.map (·.ticket) := by
    intro h post s e hrun hall heq hbefore
    by_cases hgone : ∀ q, ⟨c, q⟩ ∉ (s.perform e).1.calls
    · rw [initsBy_append, initBy?_eq_none hgone]
      simpa using hbefore
    · obtain ⟨q, hq⟩ : ∃ q, ⟨c, q⟩ ∈ (s.perform e).1.calls := by simpa using hgone
      have hnext := hrun.next hall
      have hbegan' : Began (h ++ [⟨s, e⟩]) c .init := by
        rw [heq, List.append_cons]
        exact hbegan.append post
      obtain ⟨snapshot, hsnap, hl⟩ :=
        booked_of_run hnext ⟨c, q⟩ hq ((kind_of_run hnext ⟨c, q⟩ hq).unique hnext hbegan')
      rw [← (hsnap (startup_of_opens hnext heq hbegan hopens q hq)).eq hnext heq hopens]
      exact hl.inits_le
  obtain ⟨hpre, hall, -⟩ := hrun.split heq
  subst heq
  refine hrun.since (P := fun post _ =>
    initsBy c (pre ++ o :: post) <+: o.before.registry.schedule.map (·.ticket))
    (hstep hpre hall rfl (by simp [hnew])) (fun post s e hrun hall hbefore => ?_) rfl
  have hsplit : pre ++ o :: (post ++ [⟨s, e⟩]) = (pre ++ o :: post) ++ [⟨s, e⟩] := by simp
  rw [hsplit]
  exact hstep hrun hall hsplit.symm hbefore

/-- A startup that has opened the set and has returned without an error has initialized all of the
schedule that it has found. -/
theorem inits_of_opens (hrun : (setSystem κ ξ).Run h s) (heq : h = pre ++ o :: post)
    (hbegan : Began (pre ++ [o]) c .init) (hopens : Opens c o)
    (hret : ∃ o' ∈ o :: post, Returns o' c (.ok ())) :
    initsBy c h = o.before.registry.schedule.map (·.ticket) := by
  obtain ⟨o', ho', hret⟩ := hret
  obtain ⟨a, b, hsplit⟩ := List.append_of_mem ho'
  have heq' : h = (pre ++ a) ++ o' :: b := by rw [heq, hsplit, List.append_assoc]
  obtain ⟨hbefore, hall', hafter⟩ := hrun.split heq'
  have hfacts : Began ((pre ++ a) ++ [o']) c .init ∧ IsOpening (pre ++ a) c o' := by
    rcases List.cons_eq_append_iff.1 hsplit with ⟨rfl, hcons⟩ | ⟨a, rfl, -⟩
    · obtain ⟨rfl, -⟩ := List.cons.inj hcons
      exact ⟨by simpa using hbegan, .inr hopens⟩
    · have hbegan' : Began (pre ++ o :: a) c .init := by simpa using hbegan.append a
      exact ⟨hbegan'.append _, .inl ⟨hbegan'.mem, startup_of_opens hbefore rfl hbegan hopens⟩⟩
  obtain ⟨hgone, snapshot, hsnap, hinits⟩ :=
    inits_of_succeeded hbefore hall' hfacts.1 hfacts.2 hret
  obtain rfl : snapshot = o.before.registry.schedule := by
    refine Snapshot.eq (h := h) ?_ hrun heq hopens
    rw [heq', List.append_cons]
    exact hsnap.append b
  rw [(ledger_of_gone hrun heq' hfacts.1.mem hgone).1]
  exact hinits

/-! ## The two orders -/

/-- Apart from the turns of the call, nothing comes into the set and nothing leaves it. -/
def Calm (c : CallId) (h : List (SetOccurrence κ ξ)) : Prop :=
  ∀ o ∈ h, o.event.caller? = some c ∨ ((setSystem κ ξ).after o).stays = o.before.stays

instance : Decidable (Calm c h) := inferInstanceAs (Decidable (∀ o ∈ h, _ ∨ _))

/-- Nothing comes into a set and nothing leaves it while it is calmly started. -/
theorem stays_of_calm (hrun : (setSystem κ ξ).Run h s) (heq : h = pre ++ o :: post)
    (hbegan : Began (pre ++ [o]) c .init) (hcalm : Calm c (o :: post)) :
    s.stays = o.before.stays := by
  have hstep : ∀ {h s e}, (setSystem κ ξ).Run h s → allows h s e = true →
      Began (h ++ [⟨s, e⟩]) c .init →
      (e.caller? = some c ∨ ((setSystem κ ξ).after ⟨s, e⟩).stays = s.stays) →
      (s.perform e).1.stays = s.stays := by
    rintro h s e hrun hall hbegan (hc | hsame)
    · obtain ⟨turn, -, ⟨u, p, hr, ht⟩ | ⟨heq, -⟩⟩ := resumes_of_turn hrun hall hbegan hc
      · exact (ht.stays hr.kind).trans hr.stays
      · rw [heq]
    · exact hsame
  obtain ⟨hpre, hall, -⟩ := hrun.split heq
  refine hrun.since (P := fun post s => Calm c (o :: post) → s.stays = o.before.stays)
    (fun hcalm => hstep hpre hall hbegan (hcalm o List.mem_cons_self))
    (fun post s e hrun hall ih hcalm => ?_) heq hcalm
  have hbegan' : Began (pre ++ o :: post) c .init := by simpa using hbegan.append post
  have hbefore := ih fun o' ho' => hcalm o' (List.mem_append_left [_] ho')
  exact (hstep hrun hall (hbegan'.append _) (hcalm ⟨s, e⟩ (by simp))).trans hbefore

/-- A startup during which nothing else comes into the set or leaves it initializes what has a
priority, as visited, and then the rest, as visited. This is the order in which the tasks are
visited afterwards exactly if nothing without a priority is visited before something that has
one. It is so if every priority that counts is below the default one. -/
theorem order_of_startup (hrun : (setSystem κ ξ).Run h s) (heq : h = pre ++ o :: post)
    (hproper : OfProper h) (hbegan : Began (pre ++ [o]) c .init) (hopens : Opens c o)
    (hcalm : Calm c (o :: post)) (hret : ∃ o' ∈ o :: post, Returns o' c (.ok ())) :
    s.stays = o.before.stays ∧
    initsBy c h = (List.filter (·.isPrioritized) o.before.registry ++
      List.filter (fun r => !r.isPrioritized) o.before.registry).map (·.ticket) ∧
    (initsBy c h = s.tickets ↔ o.before.registry.PrioritizedFirst) ∧
    ((∀ r ∈ o.before.registry, r.isPrioritized = true →
      r.sortKey < RegisterOptions.defaultPriority) → initsBy c h = s.tickets) := by
  obtain ⟨hpre, hall, -⟩ := hrun.split heq
  have hsorted := isSorted_of_run hpre
  have hsets := isProper_of_run hpre fun o' ho' => hproper o' (heq ▸ List.mem_append_left _ ho')
  have hstays := stays_of_calm hrun heq hbegan hcalm
  have hinits := inits_of_opens hrun heq hbegan hopens hret
  have htickets : s.tickets = List.map (·.ticket) o.before.registry := tickets_of_stays hstays
  have hiff : initsBy c h = s.tickets ↔ o.before.registry.PrioritizedFirst := by
    rw [hinits, htickets]
    exact Registry.schedule_eq_iff hsorted hsets (sound_of_run hpre).tickets
  refine ⟨hstays, ?_, hiff, fun hlow =>
    hiff.2 (Registry.prioritizedFirst_of_lt hsorted hlow)⟩
  rw [hinits, Registry.tickets_schedule hsorted hsets]

/-- Three tasks are registered, of which only the second has a priority. It is initialized and
visited first. -/
theorem order_of_startup_mixed : ∃ (h : List (SetOccurrence Unit Unit)) (s : TaskSet Unit Unit)
    (pre post : List (SetOccurrence Unit Unit)) (o : SetOccurrence Unit Unit),
    (setSystem Unit Unit).Run h s ∧ h = pre ++ o :: post ∧ OfProper h ∧
    Began (pre ++ [o]) 3 .init ∧ Opens 3 o ∧ Calm 3 (o :: post) ∧
    (∃ o' ∈ o :: post, Returns o' 3 (.ok ())) ∧ initsBy 3 h = [1, 0, 2] ∧
    s.stays = o.before.stays ∧
    initsBy 3 h = (List.filter (·.isPrioritized) o.before.registry ++
      List.filter (fun r => !r.isPrioritized) o.before.registry).map (·.ticket) ∧
    (initsBy 3 h = s.tickets ↔ o.before.registry.PrioritizedFirst) ∧
    ((∀ r ∈ o.before.registry, r.isPrioritized = true →
      r.sortKey < RegisterOptions.defaultPriority) → initsBy 3 h = s.tickets) := by
  obtain ⟨h, s, hrun, hcheck⟩ := System.exists_run_of_replay (S := setSystem Unit Unit)
    (starts_new "s" none)
    [.begin 0 (.register ⟨0, "a"⟩ [] {} none ()) false,
      .begin 1 (.register ⟨1, "b"⟩ [] (({} : RegisterOptions PoolId Unit).withPriority 7) none
        ()) false,
      .begin 2 (.register ⟨2, "c"⟩ [] {} none ()) false,
      .begin 3 .init false, .initialized 3 (.ok ()) false, .initialized 3 (.ok ()) false,
      .initialized 3 (.ok ()) false]
    (fun h _ => decide (OfProper h) && decide (Began (h.take 4) 3 .init) &&
      ((h[3]?).any fun o => decide (Opens 3 o)) && decide (Calm 3 (h.drop 3)) &&
      ((h.drop 3).any fun o => decide (Returns o 3 (.ok ()))) &&
      decide (initsBy 3 h = [1, 0, 2]))
    (by decide +kernel)
  simp only [Bool.and_eq_true, decide_eq_true_eq, List.any_eq_true, Option.any_eq_true] at hcheck
  obtain ⟨⟨⟨⟨⟨hproper, hbegan⟩, o, ho, hopens⟩, hcalm⟩, hret⟩, hinits⟩ := hcheck
  obtain ⟨hi, rfl⟩ := List.getElem?_eq_some_iff.1 ho
  have hdrop : h.drop 3 = h[3] :: h.drop 4 := List.drop_eq_getElem_cons hi
  have hsplit : h = h.take 3 ++ h[3] :: h.drop 4 := by simp
  have htake : h.take 4 = h.take 3 ++ [h[3]] := (List.take_append_getElem hi).symm
  rw [hdrop] at hcalm hret
  rw [htake] at hbegan
  exact ⟨h, s, h.take 3, h.drop 4, h[3], hrun, hsplit, hproper, hbegan, hopens, hcalm, hret,
    hinits, order_of_startup hrun hsplit hproper hbegan hopens hcalm hret⟩

/-- A task without a priority is registered before one with a priority above the default one.
It is visited first, and initialized last. -/
theorem visited_before_initialized : ¬ ∀ (h : List (SetOccurrence Unit Unit))
    (s : TaskSet Unit Unit) (pre post : List (SetOccurrence Unit Unit))
    (o : SetOccurrence Unit Unit) (c : CallId), (setSystem Unit Unit).Run h s →
    h = pre ++ o :: post → OfProper h → Began (pre ++ [o]) c .init → Opens c o →
    Calm c (o :: post) → (∃ o' ∈ o :: post, Returns o' c (.ok ())) → initsBy c h = s.tickets := by
  intro hclaim
  obtain ⟨h, s, hrun, hcheck⟩ := System.exists_run_of_replay (S := setSystem Unit Unit)
    (starts_new "s" none)
    [.begin 0 (.register ⟨0, "a"⟩ [] {} none ()) false,
      .begin 1 (.register ⟨1, "b"⟩ [] (({} : RegisterOptions PoolId Unit).withPriority 10000) none
        ()) false,
      .begin 2 .init false, .initialized 2 (.ok ()) false, .initialized 2 (.ok ()) false]
    (fun h s => decide (OfProper h) && decide (Began (h.take 3) 2 .init) &&
      ((h[2]?).any fun o => decide (Opens 2 o)) && decide (Calm 2 (h.drop 2)) &&
      ((h.drop 2).any fun o => decide (Returns o 2 (.ok ()))) &&
      decide (initsBy 2 h = [1, 0]) && decide (s.tickets = [0, 1]))
    (by decide +kernel)
  simp only [Bool.and_eq_true, decide_eq_true_eq, List.any_eq_true, Option.any_eq_true] at hcheck
  obtain ⟨⟨⟨⟨⟨⟨hproper, hbegan⟩, o, ho, hopens⟩, hcalm⟩, hret⟩, hinits⟩, htickets⟩ := hcheck
  obtain ⟨hi, rfl⟩ := List.getElem?_eq_some_iff.1 ho
  have hdrop : h.drop 2 = h[2] :: h.drop 3 := List.drop_eq_getElem_cons hi
  have htake : h.take 3 = h.take 2 ++ [h[2]] := (List.take_append_getElem hi).symm
  rw [hdrop] at hcalm hret
  rw [htake] at hbegan
  have hsame := hclaim h s _ _ h[2] 2 hrun (by simp) hproper hbegan hopens hcalm hret
  simp [hinits, htickets] at hsame

end TaskSet

end Overseer
