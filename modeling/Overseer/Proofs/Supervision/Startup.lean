import Overseer.Proofs.Supervision.Outcomes
import Overseer.Proofs.Supervision.Stillness

/-!
# The ledger of startup

Startup takes a snapshot of the schedule and goes through it. What it has begun to initialize
(`initsBy`) and what came of that (`outcomesFor`) is read off the history. `Ledger` says what both
are for each phase: the part of the snapshot that startup has behind it, in order and without a
gap, and no outcome in it but the last is an error.

`booked_of_run` says that every startup in progress keeps its ledger, and `ledger_of_failed` what
the ledger of a startup is that has failed.
-/

namespace Overseer

variable {κ ξ : Type}

/-- The `init` of an entry has succeeded. -/
def Entry.success (e : Entry) : CallId × Except Fault Unit := (e.ticket, .ok ())

@[simp] theorem CallPhase.isStartup_before (es : List Entry) :
    (CallPhase.before es : CallPhase κ ξ).isStartup = true := by cases es <;> rfl

theorem CallPhase.before_ne_aborting (es : List Entry) (current : Entry) (source : Fault) :
    (CallPhase.before es : CallPhase κ ξ) ≠ .aborting current source := by
  cases es <;> simp [CallPhase.before]

namespace TaskSet

variable {s t : TaskSet κ ξ} {c : CallId} {p q : CallPhase κ ξ} {turn : CallTurn}
  {h pre post : List (SetOccurrence κ ξ)} {o : SetOccurrence κ ξ} {e : SetEvent κ ξ}
  {snapshot done es : List Entry} {inits : List CallId}
  {outcomes : List (CallId × Except Fault Unit)}

/-! ## What a call has initialized -/

/-- The `init` that an occurrence begins for the call. -/
def initBy? (c : CallId) (o : SetOccurrence κ ξ) : Option CallId :=
  if o.event.caller? = some c then o.before.initTicket? o.event else none

/-- The outcome of an `init` that an occurrence brings to the call. -/
def outcomeFor? (c : CallId) (o : SetOccurrence κ ξ) : Option (CallId × Except Fault Unit) :=
  if o.event.caller? = some c then o.before.outcome? o.event else none

/-- On whose behalf the call has begun an `init`. -/
def initsBy (c : CallId) (h : List (SetOccurrence κ ξ)) : List CallId := h.filterMap (initBy? c)

/-- What came of the `init` calls of a call, with those on whose behalf they were. -/
def outcomesFor (c : CallId) (h : List (SetOccurrence κ ξ)) :
    List (CallId × Except Fault Unit) := h.filterMap (outcomeFor? c)

theorem initsBy_append (c : CallId) (h : List (SetOccurrence κ ξ)) (o : SetOccurrence κ ξ) :
    initsBy c (h ++ [o]) = initsBy c h ++ (initBy? c o).toList := by
  cases hi : initBy? c o <;> simp [initsBy, hi]

theorem outcomesFor_append (c : CallId) (h : List (SetOccurrence κ ξ)) (o : SetOccurrence κ ξ) :
    outcomesFor c (h ++ [o]) = outcomesFor c h ++ (outcomeFor? c o).toList := by
  cases ho : outcomeFor? c o <;> simp [outcomesFor, ho]

/-- Nothing is initialized for a call that is not in progress. -/
theorem initBy?_eq_none (hnot : ∀ p, ⟨c, p⟩ ∉ (s.perform e).1.calls) :
    initBy? c ⟨s, e⟩ = none := by
  unfold initBy?
  split
  · rename_i hc
    unfold initTicket?
    split
    · rename_i turn hturn
      have hcall : (s.perform e).1.call? c = none := by
        cases hx : (s.perform e).1.call? c with
        | none => rfl
        | some x => exact absurd (mem_of_call? hx) (hnot _)
      dsimp only at hc ⊢
      rw [hc, Option.bind_some]
      cases turn <;> simp [turnInit?, hcall]
    · rfl
  · rfl

theorem outcomeFor?_eq_none (hnot : ∀ p, ⟨c, p⟩ ∉ s.calls) : outcomeFor? c ⟨s, e⟩ = none := by
  have hcall : s.call? c = none := by
    cases hx : s.call? c with
    | none => rfl
    | some x => exact absurd (mem_of_call? hx) (hnot _)
  unfold outcomeFor?
  split
  · rename_i hc
    cases e with
    | initialized d result b =>
      obtain rfl := Option.some.inj hc
      simp [outcome?, hcall]
    | _ => rfl
  · rfl

/-- An `init` that ends brings its outcome to the call that waits for it. -/
theorem outcomeFor?_initialized {current : Entry} {rest : List Entry} {b : Bool}
    {result : Except Fault Unit} (hcall : s.call? c = some ⟨c, .preparing current rest⟩) :
    outcomeFor? c ⟨s, .initialized c result b⟩ = some (current.ticket, result) := by
  simp [outcomeFor?, SetEvent.caller?, outcome?, hcall, CallPhase.initTicket?]

/-- An `init` has begun for a call that has begun. -/
theorem ledger_of_new (hrun : (setSystem κ ξ).Run h s) (hc : c ∉ begun h) :
    initsBy c h = [] ∧ outcomesFor c h = [] := by
  induction hrun with
  | start _ => exact ⟨rfl, rfl⟩
  | @next h s e hrun hall ih =>
    have hnew : c ∉ begun h := fun hmem => hc (by
      rw [begun_append]
      exact List.mem_append_left _ hmem)
    obtain ⟨hinits, houtcomes⟩ := ih hnew
    have hafter := sound_of_run (hrun.next hall)
    refine ⟨?_, ?_⟩
    · rw [initsBy_append, hinits, initBy?_eq_none]
      · rfl
      · exact fun p hp => hc (hafter.calls _ hp)
    · rw [outcomesFor_append, houtcomes, outcomeFor?_eq_none]
      · rfl
      · exact fun p hp => hnew ((sound_of_run hrun).calls _ hp)

/-! ## The ledger -/

/-- What startup has begun to initialize, and what came of it, when it is in phase `p`. -/
inductive Ledger (snapshot : List Entry) :
    CallPhase κ ξ → List CallId → List (CallId × Except Fault Unit) → Prop
  | queued : Ledger snapshot .queued [] []
  | opening : Ledger snapshot .opening [] []
  | checking {done rest : List Entry} {next : Entry} : snapshot = done ++ next :: rest →
      Ledger snapshot (.checking next rest) (done.map (·.ticket)) (done.map (·.success))
  | preparing {done rest : List Entry} {current : Entry} : snapshot = done ++ current :: rest →
      Ledger snapshot (.preparing current rest) ((done ++ [current]).map (·.ticket))
        (done.map (·.success))
  | aborting {done rest : List Entry} {current : Entry} {source : Fault} :
      snapshot = done ++ current :: rest →
      Ledger snapshot (.aborting current source) ((done ++ [current]).map (·.ticket))
        (done.map (·.success) ++ [(current.ticket, .error source)])
  | concluding : Ledger snapshot .concluding (snapshot.map (·.ticket)) (snapshot.map (·.success))

/-- Startup begins with the first of its snapshot, and leaves nothing out. -/
theorem Ledger.inits_le (hl : Ledger snapshot p inits outcomes) :
    inits <+: snapshot.map (·.ticket) := by
  cases hl with
  | queued => exact List.nil_prefix
  | opening => exact List.nil_prefix
  | @checking done rest next heq => exact ⟨(next :: rest).map (·.ticket), by simp [heq]⟩
  | @preparing done rest _ heq => exact ⟨rest.map (·.ticket), by simp [heq]⟩
  | @aborting done rest _ _ heq => exact ⟨rest.map (·.ticket), by simp [heq]⟩
  | concluding => exact List.prefix_rfl

/-- Startup before it goes on to the rest of its snapshot. -/
theorem ledger_before (heq : snapshot = done ++ es) :
    Ledger (κ := κ) (ξ := ξ) snapshot (.before es) (done.map (·.ticket))
      (done.map (·.success)) := by
  cases es with
  | nil =>
    obtain rfl : snapshot = done := by simpa using heq
    exact .concluding
  | cons next rest => exact .checking heq

/-- Startup goes on after an `init` that has succeeded. -/
theorem Ledger.succeeds {current : Entry} {rest : List Entry}
    (hl : Ledger (κ := κ) (ξ := ξ) snapshot (.preparing current rest) inits outcomes) :
    Ledger (κ := κ) (ξ := ξ) snapshot (.before rest) inits (outcomes ++ [current.success]) := by
  cases hl with
  | @preparing done _ _ heq =>
    have hsplit : snapshot = (done ++ [current]) ++ rest := by simpa using heq
    have hnext := ledger_before (κ := κ) (ξ := ξ) hsplit
    rw [List.map_append (f := Entry.success)] at hnext
    exact hnext

/-- Startup is about to give up after an `init` that has failed. -/
theorem Ledger.fails {current : Entry} {rest : List Entry} (source : Fault)
    (hl : Ledger (κ := κ) (ξ := ξ) snapshot (.preparing current rest) inits outcomes) :
    Ledger (κ := κ) (ξ := ξ) snapshot (.aborting current source) inits
      (outcomes ++ [(current.ticket, .error source)]) := by
  cases hl with
  | preparing heq => exact .aborting heq

theorem phase_of_mem_setPhase (hq : ⟨c, q⟩ ∈ (s.setPhase c p).calls) : q = p := by
  rcases mem_setPhase hq with heq | ⟨-, hne⟩
  · exact (Call.mk.inj heq).2
  · exact absurd rfl hne

theorem not_mem_over {torn : List TaskRef} {P : CallPhase κ ξ → Prop}
    (ht : Alike torn (s.without c) t) : ∀ q, ⟨c, q⟩ ∈ t.calls → P q :=
  fun _ hq => absurd (ht.calls ▸ hq) not_mem_without

/-- An `init` that begins is the next in the ledger. -/
theorem Takes.ledger (ht : Takes c s p t turn) (hp : ⟨c, p⟩ ∈ s.calls)
    (hone : ∀ q, ⟨c, q⟩ ∈ s.calls → q = p)
    (hopen : p.isStartup = false → snapshot = s.registry.schedule)
    (hl : Ledger snapshot p inits outcomes) :
    ∀ q, ⟨c, q⟩ ∈ t.calls →
      Ledger snapshot q (inits ++ (t.turnInit? c turn).toList) outcomes := by
  induction ht with
  | waits s p =>
    intro q hq
    obtain rfl := hone q hq
    simpa [turnInit?] using hl
  | alike hs _ ih =>
    exact ih (hs.calls ▸ hp) (fun q hq => hone q (hs.calls ▸ hq))
      (fun h => hs.registry ▸ hopen h) hl
  | unqueues _ _ ih =>
    cases hl
    exact ih (mem_setPhase_self hp) (fun q hq => phase_of_mem_setPhase hq) (fun _ => hopen rfl)
      .opening
  | @opens s t turn hpending _ ih =>
    cases hl
    have hsnapshot := hopen rfl
    subst hsnapshot
    refine ih (mem_setPhase_self (s := { s with lifecycle := .starting }) hp)
      (fun q hq => phase_of_mem_setPhase (s := { s with lifecycle := .starting }) hq) (fun h => ?_)
      (ledger_before (List.nil_append _).symm)
    simp at h
  | @prepares s t next rest _ ht =>
    intro q hq
    rw [ht.calls] at hq
    obtain rfl := phase_of_mem_setPhase hq
    have hcall : t.call? c = some ⟨c, .preparing next rest⟩ := by
      rw [call?, ht.calls]
      exact call?_setPhase hp _
    cases hl with
    | @checking done _ _ heq =>
      simpa [turnInit?, hcall, CallPhase.initTicket?] using Ledger.preparing heq
  | passes _ ht => exact not_mem_over ht
  | fails _ ht => exact not_mem_over ht
  | expires _ _ ht => exact not_mem_over ht
  | @starts s t b _ ht =>
    intro q hq
    rw [ht.calls, launched, (startLoops_same _ _).2.1] at hq
    exact absurd hq not_mem_without
  | @givesUp s t current source ht => exact not_mem_over ht
  | @enrolls s t p r _ _ ht => exact not_mem_over ht
  | demolishes ht => exact not_mem_over ht
  | ends ht => exact not_mem_over ht
  | _ => cases hl

/-- A call that is past its first look at the set has been so before, or takes it now. -/
theorem Takes.opened (ht : Takes c s p t turn) (hone : ∀ q, ⟨c, q⟩ ∈ s.calls → q = p) :
    ∀ q, ⟨c, q⟩ ∈ t.calls → q.isStartup = true → p.isStartup = true ∨ s.lifecycle = .pending := by
  induction ht with
  | waits s p => exact fun q hq hst => .inl (hone q hq ▸ hst)
  | alike hs _ ih =>
    rw [← hs.lifecycle]
    exact ih fun q hq => hone q (hs.calls ▸ hq)
  | unqueues _ _ ih =>
    intro q hq hst
    rcases ih (fun q hq => phase_of_mem_setPhase hq) q hq hst with h | h
    · contradiction
    · exact .inr h
  | opens hpending _ _ => exact fun _ _ _ => .inr hpending
  | prepares _ ht => exact fun _ _ _ => .inl rfl
  | passes _ ht => exact not_mem_over ht
  | fails _ ht => exact not_mem_over ht
  | expires _ _ ht => exact not_mem_over ht
  | starts b _ ht =>
    intro q hq
    rw [ht.calls, launched, (startLoops_same _ _).2.1] at hq
    exact absurd hq not_mem_without
  | givesUp ht => exact not_mem_over ht
  | comesLate _ _ ht =>
    intro q hq hst
    rw [ht.calls] at hq
    obtain rfl := phase_of_mem_setPhase hq
    contradiction
  | refuses _ ht => exact not_mem_over ht
  | enrolls _ _ ht => exact not_mem_over ht
  | loses _ ht => exact not_mem_over ht
  | demolishes ht => exact not_mem_over ht
  | drains ht =>
    intro q hq hst
    rw [ht.calls] at hq
    obtain rfl := phase_of_mem_setPhase hq
    contradiction
  | ends ht => exact not_mem_over ht

/-! ## Histories -/

/-- The call has taken the snapshot when it was the first to look at the set. -/
def Snapshot (h : List (SetOccurrence κ ξ)) (c : CallId) (snapshot : List Entry) : Prop :=
  ∃ o ∈ h, o.event.caller? = some c ∧ o.before.lifecycle = .pending ∧
    ((setSystem κ ξ).after o).lifecycle ≠ .pending ∧ o.before.registry.schedule = snapshot

theorem Snapshot.append (hsnap : Snapshot h c snapshot) (h' : List (SetOccurrence κ ξ)) :
    Snapshot (h ++ h') c snapshot := by
  obtain ⟨o, ho, hlooks⟩ := hsnap
  exact ⟨o, List.mem_append_left _ ho, hlooks⟩

/-- The call has kept its ledger, and once it has looked at the set, it goes by a snapshot. -/
def Booked (h : List (SetOccurrence κ ξ)) (c : CallId) (p : CallPhase κ ξ)
    (outcomes : List (CallId × Except Fault Unit)) : Prop :=
  ∃ snapshot, (p.isStartup = true → Snapshot h c snapshot) ∧
    Ledger snapshot p (initsBy c h) outcomes

/-- Nothing is in the ledger of a call that has not looked at the set. -/
theorem Ledger.unopened {snapshot' : List Entry} (hl : Ledger snapshot p inits outcomes)
    (hp : p.isStartup = false) : Ledger snapshot' p inits outcomes := by
  cases hl with
  | queued => exact .queued
  | opening => exact .opening
  | _ => contradiction

theorem Takes.booked {u : TaskSet κ ξ} (hrun : (setSystem κ ξ).Run h s)
    (hall : allows h s e = true) (hc : e.caller? = some c) (hanswer : (s.perform e).2 = .call turn)
    (ht : Takes c u p (s.perform e).1 turn) (hp : ⟨c, p⟩ ∈ u.calls)
    (hone : ∀ q, ⟨c, q⟩ ∈ u.calls → q = p) (hsame : u.lifecycle = s.lifecycle)
    (hreg : p.isStartup = false → u.registry = s.registry) (hb : Booked h c p outcomes) :
    ∀ q, ⟨c, q⟩ ∈ (s.perform e).1.calls → Booked (h ++ [⟨s, e⟩]) c q outcomes := by
  intro q hq
  have hinit : (initBy? c ⟨s, e⟩).toList = ((s.perform e).1.turnInit? c turn).toList := by
    simp [initBy?, hc, initTicket?, hanswer]
  obtain ⟨snapshot, hsnap, hl⟩ := hb
  unfold Booked
  rw [initsBy_append, hinit]
  by_cases hst : p.isStartup = true
  · exact ⟨snapshot, fun _ => (hsnap hst).append _,
      ht.ledger hp hone (fun hno => by simp [hst] at hno) hl q hq⟩
  · rw [Bool.not_eq_true] at hst
    refine ⟨s.registry.schedule, fun hopen => ?_,
      ht.ledger hp hone (fun hno => by rw [hreg hno]) (hl.unopened hst) q hq⟩
    have hpending : s.lifecycle = .pending := by
      rcases ht.opened hone q hq hopen with hst' | hpending
      · simp [hst] at hst'
      · exact hsame ▸ hpending
    refine ⟨⟨s, e⟩, by simp, hc, hpending, fun hl' => ?_, rfl⟩
    have hl' : (s.perform e).1.lifecycle = .pending := hl'
    rcases (sound_of_run (hrun.next hall)).starting ⟨c, q⟩ hq hopen with hno | hno
    · exact absurd (hl'.symm.trans hno) (by simp)
    · exact absurd (hl'.symm.trans hno) (by simp)

/-- An event that gives a call no turn leaves its ledger alone. -/
theorem Booked.other (hb : Booked h c p (outcomesFor c h)) (hc : e.caller? ≠ some c) :
    Booked (h ++ [⟨s, e⟩]) c p (outcomesFor c (h ++ [⟨s, e⟩])) := by
  obtain ⟨snapshot, hsnap, hl⟩ := hb
  refine ⟨snapshot, fun hst => (hsnap hst).append _, ?_⟩
  have hinit : initBy? c ⟨s, e⟩ = none := if_neg hc
  have houtcome : outcomeFor? c ⟨s, e⟩ = none := if_neg hc
  simpa [initsBy_append, outcomesFor_append, hinit, houtcome] using hl

/-- Nothing is in the ledger of a call that begins. -/
theorem booked_begin (hrun : (setSystem κ ξ).Run h s) {request : Request κ ξ} {b : Bool}
    (hall : allows h s (.begin c request b) = true) (hkind : request.kind = .init) :
    Booked h c (request.phase c) (outcomesFor c h) ∧
      ∀ q, ⟨c, q⟩ ∈ (s.addCall c (request.phase c)).calls → q = request.phase c := by
  have hnew := (allows_begin.1 hall).2
  obtain ⟨hinits, houtcomes⟩ := ledger_of_new hrun hnew
  have hphase : request.phase c = .queued := by cases request <;> trivial
  refine ⟨⟨[], ?_, ?_⟩, fun q hq => ?_⟩
  · simp [hphase, CallPhase.isStartup]
  · rw [hphase, hinits, houtcomes]
    exact .queued
  · rcases List.mem_append.1 hq with hq | hq
    · exact absurd ((sound_of_run hrun).calls _ hq) hnew
    · exact (Call.mk.inj (List.mem_singleton.1 hq)).2

/-- A startup keeps its ledger in its own turn. -/
theorem booked_of_turn (hrun : (setSystem κ ξ).Run h s) (hall : allows h s e = true)
    (hc : e.caller? = some c)
    (hbooked : ∀ {p}, ⟨c, p⟩ ∈ s.calls → p.kind = .init → Booked h c p (outcomesFor c h))
    (hq : ⟨c, q⟩ ∈ (s.perform e).1.calls) (hkind : q.kind = .init) :
    Booked (h ++ [⟨s, e⟩]) c q (outcomesFor c (h ++ [⟨s, e⟩])) := by
  have ho := orderly_of_run hrun
  have hbegan : Began (h ++ [⟨s, e⟩]) c .init :=
    hkind ▸ kind_of_run (hrun.next hall) ⟨c, q⟩ hq
  have hold : ∀ {p : CallPhase κ ξ}, ⟨c, p⟩ ∈ s.calls → p.kind = .init :=
    kind_of_began hrun hall hbegan
  obtain ⟨turn, hanswer, hgives⟩ := gives_of_perform (sound_of_run hrun) hall hc
  -- the phase in which the call takes its turn, with the ledger that belongs to it
  have hturn : ∀ {u : TaskSet κ ξ} {p : CallPhase κ ξ} {outcomes},
      Takes c u p (s.perform e).1 turn → ⟨c, p⟩ ∈ u.calls → (∀ q, ⟨c, q⟩ ∈ u.calls → q = p) →
      u.lifecycle = s.lifecycle → (p.isStartup = false → u.registry = s.registry) →
      Booked h c p outcomes → Booked (h ++ [⟨s, e⟩]) c q outcomes :=
    fun ht hp hone hsame hreg hb => ht.booked hrun hall hc hanswer hp hone hsame hreg hb q hq
  rw [outcomesFor_append]
  generalize (s.perform e).1 = t at hgives hturn hq
  cases hgives with
  | @begins d request b _ _ ht =>
    obtain rfl := Option.some.inj hc
    obtain ⟨hb, hone⟩ := booked_begin hrun hall (kind_of_begin hrun hall hbegan)
    have hnone : outcomeFor? d ⟨s, .begin d request b⟩ = none := by simp [outcomeFor?, outcome?]
    rw [hnone, Option.toList_none, List.append_nil]
    exact hturn ht (mem_addCall_self _ _ _) hone rfl (fun _ => rfl) hb
  | @polls d p b _ _ hp ht =>
    obtain rfl := Option.some.inj hc
    have hnone : outcomeFor? d ⟨s, .poll d b⟩ = none := by simp [outcomeFor?, outcome?]
    rw [hnone, Option.toList_none, List.append_nil]
    exact hturn ht hp (fun q hq => ho.phase_eq hq hp) rfl (fun _ => rfl) (hbooked hp (hold hp))
  | comesBack hp _ =>
    obtain rfl := Option.some.inj hc
    cases hold hp
  | breaks hp _ =>
    obtain rfl := Option.some.inj hc
    cases hold hp
  | @goesOn d current rest b _ _ hp ht =>
    obtain rfl := Option.some.inj hc
    obtain ⟨snapshot, hsnap, hl⟩ := hbooked hp (hold hp)
    rw [outcomeFor?_initialized (ho.call?_of_mem hp)]
    exact hturn ht (mem_setPhase_self (s := s.marked current.task.id) hp)
      (fun q hq => phase_of_mem_setPhase hq) rfl (fun hno => by simp at hno)
      ⟨snapshot, fun _ => hsnap rfl, hl.succeeds⟩
  | @aborts d current rest source b _ _ hp ht =>
    obtain rfl := Option.some.inj hc
    obtain ⟨snapshot, hsnap, hl⟩ := hbooked hp (hold hp)
    rw [outcomeFor?_initialized (ho.call?_of_mem hp)]
    exact hturn ht (mem_setPhase_self hp) (fun q hq => phase_of_mem_setPhase hq) rfl
      (fun _ => rfl) ⟨snapshot, fun _ => hsnap rfl, hl.fails source⟩
  | misses _ hmiss =>
    obtain ⟨snapshot, hsnap, hl⟩ := hbooked hq hkind
    have hnone : outcomeFor? c ⟨s, e⟩ = none := by simp [outcomeFor?, hmiss]
    have hnone' : initBy? c ⟨s, e⟩ = none := by
      simp [initBy?, initTicket?, hanswer, hc, turnInit?]
    refine ⟨snapshot, fun hst => (hsnap hst).append _, ?_⟩
    simpa [initsBy_append, hnone, hnone'] using hl

/-- Every startup in progress keeps its ledger. -/
theorem booked_of_run (hrun : (setSystem κ ξ).Run h s) : ∀ x ∈ s.calls, x.phase.kind = .init →
    Booked h x.id x.phase (outcomesFor x.id h) := by
  induction hrun with
  | start hstart =>
    obtain ⟨name, pool, rfl⟩ := hstart
    exact fun x hx => absurd hx List.not_mem_nil
  | @next h s e hrun hall ih =>
    rintro ⟨c, q⟩ hq hkind
    by_cases hc : e.caller? = some c
    · exact booked_of_turn hrun hall hc (fun hp => ih _ hp) hq hkind
    · exact (ih _ (mem_calls_of_other (sound_of_run hrun) hall hq hc) hkind).other hc

/-- A call that is over has kept its ledger as it was. -/
theorem ledger_of_gone (hrun : (setSystem κ ξ).Run h s) (heq : h = pre ++ o :: post)
    (hbegun : c ∈ begun (pre ++ [o])) (hgone : ∀ p, ⟨c, p⟩ ∉ ((setSystem κ ξ).after o).calls) :
    initsBy c h = initsBy c (pre ++ [o]) ∧ outcomesFor c h = outcomesFor c (pre ++ [o]) := by
  have hkept : (∀ p, ⟨c, p⟩ ∉ s.calls) ∧
      initsBy c (pre ++ o :: post) = initsBy c (pre ++ [o]) ∧
      outcomesFor c (pre ++ o :: post) = outcomesFor c (pre ++ [o]) := by
    refine hrun.since (P := fun post s => (∀ p, ⟨c, p⟩ ∉ s.calls) ∧
      initsBy c (pre ++ o :: post) = initsBy c (pre ++ [o]) ∧
      outcomesFor c (pre ++ o :: post) = outcomesFor c (pre ++ [o])) ⟨hgone, rfl, rfl⟩ ?_ heq
    rintro post s e hrun hall ⟨hnot, hinits, houtcomes⟩
    have hsplit : pre ++ o :: (post ++ [⟨s, e⟩]) = (pre ++ o :: post) ++ [⟨s, e⟩] := by simp
    have hnot' : ∀ p, ⟨c, p⟩ ∉ (s.perform e).1.calls := by
      intro p hp
      obtain ⟨d, hcourse, -⟩ := course_of_perform (sound_of_run hrun) hall
      obtain ⟨⟨c', p'⟩, hx, hid, -⟩ := hcourse.continues _ hp
      obtain rfl : c = c' := hid
      rcases mem_entered hx with hx | ⟨c', request, b, rfl, hnew⟩
      · exact hnot _ hx
      · obtain rfl : c = c' := (Call.mk.inj hnew).1
        have hall : allows (pre ++ o :: post) s (.begin c request b) = true := hall
        refine (allows_begin.1 hall).2 ?_
        have hmem : c ∈ begun ((pre ++ [o]) ++ post) := by
          rw [begun, List.filterMap_append]
          exact List.mem_append_left _ hbegun
        simpa using hmem
    rw [hsplit, initsBy_append, outcomesFor_append, initBy?_eq_none hnot',
      outcomeFor?_eq_none hnot, hinits, houtcomes]
    exact ⟨hnot', by simp, by simp⟩
  rw [heq]
  exact hkept.2

/-- A call that returns has begun. -/
theorem began_of_returned (hrun : (setSystem κ ξ).Run h s) (hall : allows h s e = true)
    {result : Except SupervisionError Unit} (hret : Returns ⟨s, e⟩ c result) :
    ∃ k, Began (h ++ [⟨s, e⟩]) c k := by
  obtain ⟨hc, hanswer⟩ := hret
  have hold : ∀ {p : CallPhase κ ξ}, ⟨c, p⟩ ∈ s.calls → ∃ k, Began (h ++ [⟨s, e⟩]) c k :=
    fun hp => ⟨_, (kind_of_run hrun ⟨c, _⟩ hp).append _⟩
  obtain ⟨turn, hturn, hgives⟩ := gives_of_perform (sound_of_run hrun) hall hc
  have hreturned : turn = .returned result := SetAnswer.call.inj (hturn.symm.trans hanswer)
  generalize (s.perform e).1 = t at hgives
  cases hgives with
  | @begins d request b _ _ _ =>
    obtain rfl := Option.some.inj hc
    exact ⟨_, began_begin h s d request b⟩
  | misses _ _ => contradiction
  | _ hp _ =>
    obtain rfl := Option.some.inj hc
    exact hold hp

/-- The call is over, and the set has failed or had been destroyed before. -/
structure Collapses (c : CallId) (s t : TaskSet κ ξ) : Prop where
  gone : ∀ q, ⟨c, q⟩ ∉ t.calls
  lifecycle : t.lifecycle = .aborted ∨ t.lifecycle = .terminated
  loops : t.loops = s.loops

/-- A call fails for a task only if startup is about to give up because of it. -/
theorem Takes.failed {name : String} {source : Fault} (ht : Takes c s p t turn)
    (hk : p.kind = .init) (hfailed : turn = .returned (.error (.initFailed name source))) :
    (∃ current, p = .aborting current source ∧ name = current.task.name) ∧ Collapses c s t := by
  induction ht with
  | alike hs _ ih =>
    obtain ⟨hphase, hcollapses⟩ := ih hk hfailed
    exact ⟨hphase, hcollapses.gone, hcollapses.lifecycle, hcollapses.loops.trans hs.loops⟩
  | unqueues _ _ ih =>
    obtain ⟨⟨current, hp, -⟩, -⟩ := ih rfl hfailed
    contradiction
  | opens _ _ ih =>
    obtain ⟨⟨current, hp, -⟩, -⟩ := ih (CallPhase.kind_before _) hfailed
    exact absurd hp (CallPhase.before_ne_aborting _ current source)
  | @givesUp s t current source ht =>
    have herror := Except.error.inj (CallTurn.returned.inj hfailed)
    obtain ⟨rfl, rfl⟩ := SupervisionError.initFailed.inj herror
    refine ⟨⟨_, rfl, rfl⟩, not_mem_over ht, ?_, ?_⟩
    · rw [ht.lifecycle]
      by_cases hl : s.lifecycle = Lifecycle.terminated
      · exact .inr (by simp [givenUp, without, hl])
      · exact .inl (by simp [givenUp, without, hl])
    · rw [ht.loops]
      unfold givenUp
      split <;> rfl
  | refuses _ _ => contradiction
  | loses _ _ => contradiction
  | _ => simp at hfailed

/-- A startup that fails was about to, or hears of the `init` that has failed. -/
theorem failing_of_returned (hrun : (setSystem κ ξ).Run h s) (hall : allows h s e = true)
    (hbegan : Began (h ++ [⟨s, e⟩]) c .init) {name : String} {source : Fault}
    (hret : Returns ⟨s, e⟩ c (.error (.initFailed name source))) :
    Collapses c s (s.perform e).1 ∧ ∃ p current, name = current.task.name ∧ ⟨c, p⟩ ∈ s.calls ∧
      (p = .aborting current source ∧ outcomeFor? c ⟨s, e⟩ = none ∨
        ∃ rest, p = .preparing current rest ∧
          outcomeFor? c ⟨s, e⟩ = some (current.ticket, .error source)) := by
  obtain ⟨hc, hanswer⟩ := hret
  have ho := orderly_of_run hrun
  have hold : ∀ {p : CallPhase κ ξ}, ⟨c, p⟩ ∈ s.calls → p.kind = .init :=
    kind_of_began hrun hall hbegan
  obtain ⟨turn, hturn, hgives⟩ := gives_of_perform (sound_of_run hrun) hall hc
  have hfailed : turn = .returned (.error (.initFailed name source)) :=
    SetAnswer.call.inj (hturn.symm.trans hanswer)
  generalize (s.perform e).1 = t at hgives
  cases hgives with
  | @begins d request b _ _ ht =>
    obtain rfl := Option.some.inj hc
    have hkind : request.kind = .init := kind_of_begin hrun hall hbegan
    obtain ⟨⟨current, hp, -⟩, -⟩ := ht.failed ((request.kind_phase d).trans hkind) hfailed
    cases request <;> contradiction
  | @polls d p b _ _ hp ht =>
    obtain rfl := Option.some.inj hc
    obtain ⟨⟨current, rfl, hname⟩, hcollapses⟩ := ht.failed (hold hp) hfailed
    exact ⟨hcollapses, _, current, hname, hp, .inl ⟨rfl, by simp [outcomeFor?, outcome?]⟩⟩
  | comesBack hp _ =>
    obtain rfl := Option.some.inj hc
    cases hold hp
  | breaks hp _ =>
    obtain rfl := Option.some.inj hc
    cases hold hp
  | goesOn _ ht =>
    obtain rfl := Option.some.inj hc
    obtain ⟨⟨current, hp, -⟩, -⟩ := ht.failed (CallPhase.kind_before _) hfailed
    exact absurd hp (CallPhase.before_ne_aborting _ current source)
  | @aborts d current rest source' b _ _ hp ht =>
    obtain rfl := Option.some.inj hc
    obtain ⟨⟨current', hphase, rfl⟩, hcollapses⟩ := ht.failed rfl hfailed
    obtain ⟨rfl, rfl⟩ := CallPhase.aborting.inj hphase
    exact ⟨{ hcollapses with }, _, current, rfl, hp, .inr ⟨rest, rfl,
      outcomeFor?_initialized (ho.call?_of_mem hp)⟩⟩
  | misses _ _ => contradiction

/-- A startup that fails names the first task of its snapshot whose `init` has failed, and it has
initialized the tasks before that and nothing else. -/
theorem ledger_of_failed (hrun : (setSystem κ ξ).Run h s) (heq : h = pre ++ o :: post)
    (hbegan : Began (pre ++ [o]) c .init) {name : String} {source : Fault}
    (hret : Returns o c (.error (.initFailed name source))) :
    ∃ done current rest, Snapshot pre c (done ++ current :: rest) ∧ name = current.task.name ∧
      initsBy c h = (done ++ [current]).map (·.ticket) ∧
      outcomesFor c h = done.map (·.success) ++ [(current.ticket, .error source)] := by
  obtain ⟨hpre, hall, -⟩ := hrun.split heq
  obtain ⟨hcollapses, p, current, hname, hp, hphase⟩ :=
    failing_of_returned hpre hall hbegan hret
  obtain ⟨hinits, houtcomes⟩ := ledger_of_gone hrun heq hbegan.mem hcollapses.gone
  have hnone : initBy? c o = none := initBy?_eq_none hcollapses.gone
  rw [hinits, houtcomes, initsBy_append, outcomesFor_append, hnone]
  have hkind : p.kind = .init := kind_of_began hpre hall hbegan hp
  obtain ⟨snapshot, hsnap, hl⟩ := booked_of_run hpre ⟨c, p⟩ hp hkind
  dsimp only at hsnap hl
  generalize initsBy c pre = inits, outcomesFor c pre = outcomes at hl
  rcases hphase with ⟨rfl, hno⟩ | ⟨rest, rfl, hfails⟩
  · cases hl with
    | @aborting done rest _ _ hsplit =>
      refine ⟨done, current, rest, hsplit ▸ hsnap rfl, hname, by simp, ?_⟩
      have hno : outcomeFor? c o = none := hno
      simp [hno]
  · cases hl with
    | @preparing done _ _ hsplit =>
      refine ⟨done, current, rest, hsplit ▸ hsnap rfl, hname, by simp, ?_⟩
      have hfails : outcomeFor? c o = some (current.ticket, .error source) := hfails
      simp [hfails]

/-! ## After startup -/

/-- Startup has begun, and no startup is in progress. -/
structure IsOver (s : TaskSet κ ξ) : Prop where
  opened : s.lifecycle ≠ .pending
  none : ∀ x ∈ s.calls, x.phase.isStartup = false

theorem IsOver.collect (hs : IsOver s) : IsOver s.collect.2 := ⟨hs.opened, hs.none⟩

/-- Once startup is over, it stays so, and nothing changes the lifecycle but a destroy call. -/
theorem Move.over {d : Option Deed} (hm : Move s d t) (hs : IsOver s) :
    IsOver t ∧ (t.lifecycle = s.lifecycle ∨ t.lifecycle = .terminated) := by
  have hsame : t.lifecycle = s.lifecycle → (∀ x ∈ t.calls, x ∈ s.calls) →
      IsOver t ∧ (t.lifecycle = s.lifecycle ∨ t.lifecycle = .terminated) := fun hl hsub =>
    ⟨⟨hl.trans_ne hs.opened, fun x hx => hs.none x (hsub x hx)⟩, .inl hl⟩
  have hset : ∀ {c : CallId} {q : CallPhase κ ξ}, q.isStartup = false →
      IsOver (s.setPhase c q) ∧ ((s.setPhase c q).lifecycle = s.lifecycle ∨
        (s.setPhase c q).lifecycle = .terminated) := by
    intro c q hq
    refine ⟨⟨hs.opened, fun x hx => ?_⟩, .inl rfl⟩
    rcases mem_setPhase hx with rfl | ⟨hx, -⟩
    · exact hq
    · exact hs.none x hx
  cases hm with
  | goesOn h => exact hsame h.lifecycle fun x hx => h.calls ▸ hx
  | shifts hc hp =>
    refine hset (Bool.eq_false_iff.2 fun hq => ?_)
    have hno := hs.none _ hc
    simp [hp.within.startup hq] at hno
  | opens _ hl => exact absurd hl hs.opened
  | marks id => exact hsame rfl fun x hx => hx
  | finishes c => exact hsame rfl fun x hx => mem_without hx
  | starts _ hc _ => simpa [CallPhase.isStartup] using hs.none _ hc
  | givesUp hc _ => simpa [CallPhase.isStartup] using hs.none _ hc
  | comesLate hc _ => exact hset rfl
  | prepares hc _ => simpa [CallPhase.isStartup] using hs.none _ hc
  | enrolls hc _ _ =>
    refine hsame (enroll_same _ _ _).1 fun x hx => ?_
    rw [(enroll_same _ _ _).2.1] at hx
    exact mem_without hx
  | refuses _ h => exact hsame h.lifecycle fun x hx => mem_without (h.calls ▸ hx)
  | removes _ _ _ _ h _ => exact hsame h.lifecycle fun x hx => h.calls ▸ hx
  | displaces _ _ _ h => exact hsame h.lifecycle fun x hx => h.calls ▸ hx
  | demolishes h _ =>
    have hl : t.lifecycle = .terminated := h.lifecycle
    exact ⟨⟨by simp [hl], fun x hx => hs.none x (h.calls ▸ hx)⟩, .inr hl⟩
  | drops _ h _ => exact hsame h.lifecycle fun x hx => h.calls ▸ hx

theorem IsOver.perform (hover : IsOver s) (hs : Sound (begun h) s) (hall : allows h s e = true) :
    IsOver (s.perform e).1 ∧
      ((s.perform e).1.lifecycle = s.lifecycle ∨ (s.perform e).1.lifecycle = .terminated) := by
  obtain ⟨d, hcourse, -⟩ := course_of_perform hs hall
  refine hcourse.keeps (P := fun t => IsOver t ∧
    (t.lifecycle = s.lifecycle ∨ t.lifecycle = .terminated)) (fun hm hp => ?_) ⟨⟨?_, ?_⟩, ?_⟩
  · obtain ⟨hover, hl⟩ := hp
    obtain ⟨hover', hl'⟩ := hm.over hover
    refine ⟨hover', ?_⟩
    rcases hl' with hl' | hl'
    · exact hl.imp hl'.trans hl'.trans
    · exact .inr hl'
  · exact (lifecycle_entered s e).trans_ne hover.opened
  · intro x hx
    rcases mem_entered hx with hx | ⟨c, request, b, -, rfl⟩
    · exact hover.none x hx
    · cases request <;> rfl
  · exact .inl (lifecycle_entered s e)

/-- From when startup is over it stays so. -/
theorem over_of_run (hrun : (setSystem κ ξ).Run h s) (heq : h = pre ++ o :: post)
    (hover : IsOver ((setSystem κ ξ).after o)) : IsOver s := by
  refine hrun.since (P := fun _ s => IsOver s) hover (fun _ s e hrun hall hover => ?_) heq
  exact (hover.perform (sound_of_run hrun) hall).1.collect

end TaskSet

end Overseer
