import Overseer.Proofs.Process.Events
import Overseer.Proofs.Supervision.Solo

/-!
# The stages of a process

All calls on the set of a root task are made by its process, one after the other. So the set is as
the stage of the process says (`Fits`), whatever else happens: it has yet to start while the process
registers the task, it is starting while the `init` of the task runs, and it has started, or startup
has failed, when that is over. From the moment at which the process destroys the set, the set is
terminated, and when that call has returned every loop has come to its end. The stage also says how
the `init` has ended (`Settles`), and that the task has been registered once (`Hosts`).
-/

namespace Overseer

variable {κ ξ υ : Type}

/-- The tasks that a process has registered. -/
def HostStage.registered (root : TaskRef) : HostStage → List TaskRef
  | .idle => []
  | _ => [root]

/-- Why a process stops, and how the `init` of its root task has ended. -/
inductive Settles (root : TaskRef) (shutdown : Bool) :
    Option SupervisionError → List (TaskRef × Except Fault Unit) → Prop
  /-- The process was asked to stop. -/
  | asked : shutdown = true → Settles root shutdown none [(root, .ok ())]
  | failed (f : Fault) :
      Settles root shutdown (some (.initFailed root.name f)) [(root, .error f)]

/-- What a process that stops for some reason results in. -/
def resultOf : Option SupervisionError → Except Fault Unit
  | none => .ok ()
  | some e => .error e.toFault

/-- The set of the root task is as the stage of the process says. `outcomes` tells how `init`s have
ended. -/
inductive Fits (root : TaskRef) (shutdown : Bool)
    (outcomes : List (TaskRef × Except Fault Unit)) (s : TaskSet κ ξ) : HostStage → Prop
  | idle : s.lifecycle = .pending → s.registry = [] → outcomes = [] →
      Fits root shutdown outcomes s .idle
  | registered {r : Registration κ ξ} : s.lifecycle = .pending → s.registry = [r] →
      r.task = root → outcomes = [] →
      Fits root shutdown outcomes s (.busy .registering (.turn (.ok ())))
  | initializing {c : CallId} {entry : Entry} : s.lifecycle = .starting →
      s.calls = [⟨c, .preparing entry []⟩] → entry.task = root → outcomes = [] →
      Fits root shutdown outcomes s (.busy .initializing (.call c))
  | initialized : s.lifecycle = .started → s.calls = [] → outcomes = [(root, .ok ())] →
      Fits root shutdown outcomes s (.busy .initializing (.turn (.ok ())))
  | failed {f : Fault} : s.lifecycle = .aborted → s.calls = [] → outcomes = [(root, .error f)] →
      Fits root shutdown outcomes s
        (.busy .initializing (.turn (.error (.initFailed root.name f))))
  | serving : s.lifecycle = .started → s.calls = [] → outcomes = [(root, .ok ())] →
      Fits root shutdown outcomes s (.busy .serving .shutdown)
  | stopping {c : CallId} {failure : Option SupervisionError} :
      s.calls = [⟨c, .draining⟩] → Settles root shutdown failure outcomes →
      Fits root shutdown outcomes s (.busy (.stopping failure) (.call c))
  | stopped {failure : Option SupervisionError} : s.lifecycle = .terminated → s.calls = [] →
      s.isQuiet = true → Settles root shutdown failure outcomes →
      Fits root shutdown outcomes s (.busy (.stopping failure) (.turn (.ok ())))
  | ended {failure : Option SupervisionError} : s.lifecycle = .terminated → s.calls = [] →
      s.isQuiet = true → Settles root shutdown failure outcomes →
      Fits root shutdown outcomes s (.ended (resultOf failure))

section Fits

open TaskSet

variable {root : TaskRef} {shutdown shutdown' : Bool}
  {outcomes : List (TaskRef × Except Fault Unit)} {s t : TaskSet κ ξ} {stage : HostStage}
  {failure : Option SupervisionError} {h : List (SetOccurrence κ ξ)} {e : SetEvent κ ξ}
  {c d : CallId}

theorem Settles.mono (hs : Settles root shutdown failure outcomes)
    (hmore : shutdown = true → shutdown' = true) : Settles root shutdown' failure outcomes := by
  cases hs with
  | asked hasked => exact .asked (hmore hasked)
  | failed f => exact .failed f

/-- Why a process stops is how its `init` has ended. -/
theorem Settles.outcome (hs : Settles root shutdown failure outcomes) :
    ∃ outcome, outcomes = [(root, outcome)] ∧
      resultOf failure = outcome.mapError (fun f =>
        (SupervisionError.initFailed root.name f).toFault) ∧
      (shutdown = true ∨ ∃ f, outcome = .error f) := by
  cases hs with
  | asked hasked => exact ⟨.ok (), rfl, rfl, .inl hasked⟩
  | failed f => exact ⟨.error f, rfl, rfl, .inr ⟨f, rfl⟩⟩

/-- What matters has stayed as it was. -/
theorem Fits.same (hf : Fits root shutdown outcomes s stage)
    (hmore : shutdown = true → shutdown' = true) (hl : t.lifecycle = s.lifecycle)
    (hc : t.calls = s.calls) (hr : s.lifecycle = .pending → t.registry = s.registry)
    (hq : s.lifecycle = .terminated → s.isQuiet = true → t.isQuiet = true) :
    Fits root shutdown' outcomes t stage := by
  cases hf with
  | idle hl' hr' ho => exact .idle (hl.trans hl') ((hr hl').trans hr') ho
  | registered hl' hr' htask ho =>
    exact .registered (hl.trans hl') ((hr hl').trans hr') htask ho
  | initializing hl' hc' htask ho => exact .initializing (hl.trans hl') (hc.trans hc') htask ho
  | initialized hl' hc' ho => exact .initialized (hl.trans hl') (hc.trans hc') ho
  | failed hl' hc' ho => exact .failed (hl.trans hl') (hc.trans hc') ho
  | serving hl' hc' ho => exact .serving (hl.trans hl') (hc.trans hc') ho
  | stopping hc' hs => exact .stopping (hc.trans hc') (hs.mono hmore)
  | stopped hl' hc' hq' hs =>
    exact .stopped (hl.trans hl') (hc.trans hc') (hq hl' hq') (hs.mono hmore)
  | ended hl' hc' hq' hs => exact .ended (hl.trans hl') (hc.trans hc') (hq hl' hq') (hs.mono hmore)

theorem Fits.collect (hf : Fits root shutdown outcomes s stage) :
    Fits root shutdown outcomes s.collect.2 stage :=
  hf.same id rfl rfl (fun _ => rfl) fun _ hq => hq

/-- Only the call on which the process waits is in progress. -/
theorem Fits.call (hf : Fits root shutdown outcomes s stage)
    (hidle : s.lifecycle = .pending → s.calls = []) {p : CallPhase κ ξ} (hc : ⟨c, p⟩ ∈ s.calls) :
    stage.call? = some c := by
  have honly : ∀ {d : CallId} {q : CallPhase κ ξ}, s.calls = [⟨d, q⟩] → d = c := by
    intro d q hq
    rw [hq] at hc
    exact (Call.mk.inj (List.mem_singleton.1 hc)).1.symm
  cases hf with
  | idle hl _ _ => simp [hidle hl] at hc
  | registered hl _ _ _ => simp [hidle hl] at hc
  | initializing _ hc' _ _ => exact congrArg some (honly hc')
  | stopping hc' _ => exact congrArg some (honly hc')
  | initialized _ hc' _ => simp [hc'] at hc
  | failed _ hc' _ => simp [hc'] at hc
  | serving _ hc' _ => simp [hc'] at hc
  | stopped _ hc' _ _ => simp [hc'] at hc
  | ended _ hc' _ _ => simp [hc'] at hc

/-- None of the calls of a process is a registration on its way. -/
theorem Fits.late?_eq_none (hf : Fits root shutdown outcomes s stage)
    (hidle : s.lifecycle = .pending → s.calls = []) {x : Call κ ξ} (hx : x ∈ s.calls) :
    x.phase.late? = none := by
  cases hf with
  | idle hl _ _ => simp [hidle hl] at hx
  | registered hl _ _ _ => simp [hidle hl] at hx
  | initializing _ hc _ _ =>
    rw [hc, List.mem_singleton] at hx
    rw [hx]
    rfl
  | stopping hc _ =>
    rw [hc, List.mem_singleton] at hx
    rw [hx]
    rfl
  | initialized _ hc _ => simp [hc] at hx
  | failed _ hc _ => simp [hc] at hx
  | serving _ hc _ => simp [hc] at hx
  | stopped _ hc _ _ => simp [hc] at hx
  | ended _ hc _ _ => simp [hc] at hx

/-! ## Events of the set -/

/-- A stage that does not wait for the call hears nothing of its turn. -/
theorem HostStage.hear_of_ne {answer : SetAnswer κ} (hne : stage.call? ≠ some c) :
    stage.hear (some c) answer = stage := by
  unfold hear
  split
  · rename_i phase d
    rw [if_neg]
    rintro ⟨rfl⟩
    exact hne rfl
  · rfl

theorem HostStage.hear_self {phase : ProcessPhase} {answer : SetAnswer κ} :
    hear (.busy phase (.call c)) (some c) answer = .busy phase (.after c answer) := if_pos rfl

theorem HostStage.hear_none {answer : SetAnswer κ} : stage.hear none answer = stage := by
  unfold hear
  split
  · rfl
  · rfl

theorem HostStage.registered_hear {caller : Option CallId} {answer : SetAnswer κ} :
    (stage.hear caller answer).registered root = stage.registered root := by
  unfold hear
  split
  · split <;> rfl
  · rfl

theorem HostStage.isEnded_hear {caller : Option CallId} {answer : SetAnswer κ} :
    (stage.hear caller answer).isEnded = stage.isEnded := by
  unfold hear
  split
  · split <;> rfl
  · rfl

/-- What the process does not do itself leaves the set as it should be. -/
theorem Fits.perform (hf : Fits root shutdown outcomes s stage) (hrun : (setSystem κ ξ).Run h s)
    (hall : allows h s e = true) (hb : e.begins? = none) (hab : ∀ c, e ≠ .abandon c)
    (hu : ∀ task, e ≠ .unregister task) (hdrop : e = .drop → s.lifecycle = .terminated) :
    Fits root shutdown (outcomes ++ (s.initOutcome? e).toList) (s.perform e).1
        (stage.hear e.caller? (s.perform e).2) ∧ (s.perform e).1.stays.Sublist s.stays := by
  have hs := sound_of_run hrun
  cases hd : e.caller? with
  | none =>
    have hw := wanes_of_perform hs hall hd
    refine ⟨?_, hw.registry.map _⟩
    have hnone : s.initOutcome? e = none :=
      initOutcome?_eq_none fun c q hc => nomatch hd.symm.trans hc
    rw [hnone, Option.toList_none, List.append_nil, HostStage.hear_none]
    refine hf.same id hw.lifecycle (calls_of_perform hd hab) (fun hl => ?_) fun hl hq =>
      (quiet_of_perform hs hl hq hall).1
    have hloops := hs.loops_eq_nil (by simp [hl]) (by simp [hl])
    exact registry_of_loops hs hall hd hloops hu fun he => nomatch hl.symm.trans (hdrop he)
  | some d =>
    by_cases hcall : stage.call? = some d
    · cases hf with
      | initializing hl hc htask ho =>
        obtain rfl := Option.some.inj hcall
        subst htask ho
        obtain ⟨t, turn, hperform, hstays, hends⟩ := perform_preparing hrun hall hd hb hl hc
        rw [hperform, HostStage.hear_self]
        refine ⟨?_, hstays ▸ List.Sublist.refl _⟩
        rcases hends with ⟨hl', hc', hout, rfl⟩ | ⟨hl', hc', hout, rfl⟩ |
          ⟨source, hl', hc', hout, rfl⟩
        · exact .initializing hl' (hc'.trans hc) rfl (by rw [hout]; rfl)
        · exact .initialized hl' hc' (by rw [hout]; rfl)
        · exact .failed hl' hc' (by rw [hout]; rfl)
      | stopping hc hsettles =>
        obtain rfl := Option.some.inj hcall
        obtain ⟨t, turn, hperform, hl', hr, hends⟩ := perform_draining hrun hall hd hb hc
        have hnone : s.initOutcome? e = none := by
          refine initOutcome?_eq_none fun c q _ hq => ?_
          rw [hc] at hq
          rw [(Call.mk.inj (List.mem_singleton.1 hq)).2]
          rfl
        rw [hnone, Option.toList_none, List.append_nil, hperform, HostStage.hear_self]
        refine ⟨?_, ?_⟩
        · rcases hends with ⟨hc', hq', rfl⟩ | ⟨hc', rfl⟩
          · exact .stopped hl' hc' hq' hsettles
          · exact .stopping hc' hsettles
        · simp [stays, hr]
      | _ => contradiction
    · have hno : ∀ q, ⟨d, q⟩ ∉ s.calls := fun q hq =>
        hcall (hf.call (prompt_of_run hrun).pending hq)
      rw [perform_absent hrun hall hd hb hno, HostStage.hear_of_ne hcall,
        initOutcome?_eq_none fun c q hc hq =>
          absurd (Option.some.inj (hd.symm.trans hc) ▸ hq) (hno q),
        Option.toList_none, List.append_nil]
      exact ⟨hf, List.Sublist.refl _⟩

/-! ## Calls of the process -/

/-- The process has registered the root task. -/
theorem Fits.register (hf : Fits root shutdown outcomes s .idle)
    (hrun : (setSystem κ ξ).Run h s) {args : List Argument}
    {options : RegisterOptions PoolId κ} {extra : ξ} {cancelled : Bool}
    (hall : allows h s (.begin c (.register root args options none extra) cancelled) = true) :
    ∃ t answer, s.perform (.begin c (.register root args options none extra) cancelled) =
      (t, answer) ∧ Fits root shutdown outcomes t (.busy .registering (.after c answer)) ∧
      s.stays = [] ∧ t.stays.map Prod.snd = [root] := by
  cases hf with
  | idle hl hr ho =>
    obtain ⟨t, hperform, hl', -, r, hr', htask⟩ := perform_register hrun hall hl hr
    exact ⟨t, _, hperform, .registered hl' hr' htask ho, by simp [stays, hr],
      by simp [stays, hr', Registration.stay, htask]⟩

/-- The process has begun to start the set. -/
theorem Fits.init (hf : Fits root shutdown outcomes s (.busy .registering (.turn (.ok ()))))
    (hrun : (setSystem κ ξ).Run h s) {cancelled : Bool}
    (hall : allows h s (.begin c .init cancelled) = true) :
    ∃ t answer, s.perform (.begin c .init cancelled) = (t, answer) ∧
      Fits root shutdown outcomes t (.busy .initializing (.after c answer)) ∧
      t.stays = s.stays := by
  cases hf with
  | @registered r hl hr htask ho =>
    obtain ⟨t, hperform, hl', hc', hr'⟩ := perform_init hrun hall hl hr
    exact ⟨t, _, hperform, .initializing hl' hc' htask ho, by rw [stays, stays, hr, hr']⟩

/-- The process has begun to destroy the set. -/
theorem Fits.destroy (hsettles : Settles root shutdown failure outcomes)
    (hrun : (setSystem κ ξ).Run h s) {cancelled : Bool}
    (hall : allows h s (.begin c .destroy cancelled) = true) (hl : s.lifecycle ≠ .terminated)
    (hc : s.calls = []) :
    ∃ t answer, s.perform (.begin c .destroy cancelled) = (t, answer) ∧
      Fits root shutdown outcomes t (.busy (.stopping failure) (.after c answer)) ∧
      t.stays = [] := by
  obtain ⟨t, turn, hperform, hl', hr', hends⟩ := perform_destroy hrun hall hl hc
  refine ⟨t, _, hperform, ?_, by simp [stays, hr']⟩
  rcases hends with ⟨hc', hq', rfl⟩ | ⟨hc', rfl⟩
  · exact .stopped hl' hc' hq' hsettles
  · exact .stopping hc' hsettles

end Fits

/-! ## Histories -/

namespace Host

open TaskSet

variable {b : Boundary κ ξ} {w : Host κ ξ υ} {h : List (HostOccurrence κ ξ υ)}
  {e : HostEvent κ ξ υ} {e' : SetEvent κ ξ} {c : CallId} {phase : ProcessPhase}
  {request : Request κ ξ}

/-- The set is as it should be, and the root task is registered once. -/
structure Hosts (b : Boundary κ ξ) (h : List (HostOccurrence κ ξ υ)) (w : Host κ ξ υ) : Prop where
  fits : Fits b.root w.shutdown (initOutcomes (setHistory b h)) w.site.set w.stage
  stays : (departures (setHistory b h) ++ w.site.set.stays).map Prod.snd =
    w.stage.registered b.root

/-- An event that does not concern the set. -/
theorem Hosts.apart (hw : Hosts b h w) (he : w.setEvent? b e = none)
    (hf : Fits b.root (w.perform b e).shutdown (initOutcomes (setHistory b h)) w.site.set
      (w.perform b e).stage)
    (hreg : (w.perform b e).stage.registered b.root = w.stage.registered b.root) :
    Hosts b (h ++ [⟨w, e⟩]) (w.perform b e) := by
  have hset : (w.perform b e).site.set = w.site.set := by rw [set_perform, he, Option.elim_none]
  have hhist : setHistory b (h ++ [⟨w, e⟩]) = setHistory b h := by
    rw [setHistory_concat, he, Option.map_none, Option.toList_none, List.append_nil]
  exact ⟨hhist ▸ hset ▸ hf, by rw [hhist, hset, hreg, hw.stays]⟩

/-- An event of the set. -/
theorem hosts_of_changes (he : w.setEvent? b e = some e')
    (hf : Fits b.root (w.perform b e).shutdown
      (initOutcomes (setHistory b h) ++ (w.site.set.initOutcome? e').toList)
      (w.site.set.perform e').1 (w.perform b e).stage)
    (hstays : (departures (setHistory b h) ++ (endings w.site.set (w.site.set.perform e').1 ++
      (w.site.set.perform e').1.stays)).map Prod.snd = (w.perform b e).stage.registered b.root) :
    Hosts b (h ++ [⟨w, e⟩]) (w.perform b e) := by
  have hset : (w.perform b e).site.set = ((setSystem κ ξ).happen w.site.set e').1 := by
    rw [set_perform, he, Option.elim_some]
  have hhist : setHistory b (h ++ [⟨w, e⟩]) = setHistory b h ++ [⟨w.site.set, e'⟩] := by
    rw [setHistory_concat, he, Option.map_some, Option.toList_some]
  have hout : initOutcomes (setHistory b (h ++ [⟨w, e⟩])) =
      initOutcomes (setHistory b h) ++ (w.site.set.initOutcome? e').toList := by
    rw [hhist]
    exact Site.filterMap_concat _ _ _
  have hleft : departures (setHistory b (h ++ [⟨w, e⟩])) = departures (setHistory b h) ++
      endings w.site.set ((setSystem κ ξ).happen w.site.set e').1 := by
    rw [hhist]
    simp [departures, System.after]
  refine ⟨?_, ?_⟩
  · rw [hout, hset]
    exact hf.collect
  · rw [hleft, hset, List.append_assoc]
    exact hstays

/-- A stay goes on or ends. -/
theorem Hosts.stays_of_sublist (hw : Hosts b h w) {t : TaskSet κ ξ}
    (hsub : t.stays.Sublist w.site.set.stays) :
    (departures (setHistory b h) ++ (endings w.site.set t ++ t.stays)).map Prod.snd =
      w.stage.registered b.root := by
  have hone : (w.stage.registered b.root).length ≤ 1 := by
    cases w.stage <;> simp [HostStage.registered]
  rw [← hw.stays, List.length_map, List.length_append] at hone
  rw [endings_append_stays (Nat.le_trans (Nat.le_add_left _ _) hone) hsub, hw.stays]

/-- The process makes a call. -/
theorem perform_of_demand {d : ProcessDemand} (hb : b.process.startFault? = none)
    (he : e = .launch c ∨ e = .proceed c) (hd : w.demand? b e = some (some phase, d))
    (hreq : b.request? d = some request) :
    w.setEvent? b e = some (.begin c request w.shutdown) ∧
      (w.perform b e).stage =
        .busy phase (.after c (w.site.set.perform (.begin c request w.shutdown)).2) ∧
      (w.perform b e).shutdown = w.shutdown := by
  have hstage : w.stageOf b c (some phase, d) =
      .busy phase (.after c (w.site.set.perform (.begin c request w.shutdown)).2) := by
    unfold stageOf
    cases d <;> simp_all [Boundary.request?]
  have hevent : w.demandEvent? b c d = some (.set (.begin c request w.shutdown)) := by
    unfold demandEvent?
    cases d <;> simp_all [Boundary.request?]
  rcases he with rfl | rfl
  · refine ⟨?_, ?_, Bool.or_false _⟩
    · simp only [setEvent?, siteEvent?, hd, Option.bind_some, hevent]
      rfl
    · show w.nextStage b (.launch c) = _
      simp only [nextStage, hb, hd, Option.elim_some, hstage]
  · refine ⟨?_, ?_, Bool.or_false _⟩
    · simp only [setEvent?, siteEvent?, hd, Option.bind_some, hevent]
      rfl
    · show w.nextStage b (.proceed c) = _
      simp only [nextStage, hd, Option.elim_some, hstage]

theorem shutdown_perform (h : w.shutdown = true) : (w.perform b e).shutdown = true := by
  show (w.shutdown || _) = true
  rw [h, Bool.true_or]

theorem hosts_of_call {d : ProcessDemand} (hb : b.process.startFault? = none)
    (he : e = .launch c ∨ e = .proceed c) (hd : w.demand? b e = some (some phase, d))
    (hreq : b.request? d = some request) {t : TaskSet κ ξ} {answer : SetAnswer κ}
    (hperform : w.site.set.perform (.begin c request w.shutdown) = (t, answer))
    (hf : Fits b.root w.shutdown (initOutcomes (setHistory b h)) t
      (.busy phase (.after c answer)))
    (hstays : (departures (setHistory b h) ++ (endings w.site.set t ++ t.stays)).map Prod.snd =
      [b.root]) : Hosts b (h ++ [⟨w, e⟩]) (w.perform b e) := by
  obtain ⟨hevent, hstage, hshutdown⟩ := perform_of_demand hb he hd hreq
  have hnone : w.site.set.initOutcome? (.begin c request w.shutdown) = none := rfl
  refine hosts_of_changes hevent ?_ ?_
  · rw [hstage, hshutdown, hnone, hperform, Option.toList_none, List.append_nil]
    exact hf
  · rw [hstage, hperform]
    exact hstays

/-- A process whose set has been destroyed stops. -/
theorem demand?_of_stopped {failure : Option SupervisionError} (c : CallId)
    (hst : w.stage = .busy (.stopping failure) (.turn (.ok ()))) :
    w.demand? b (.proceed c) = some (none, .stop (resultOf failure)) := by
  simp only [demand?, hst]
  cases failure <;> rfl

section Demands

variable (hb : b.process.startFault? = none) (hrun : (hostSystem b υ).Run h w)

include hb hrun

/-- The process registers the root task. -/
theorem Hosts.launch (hw : Hosts b h w) (hall : w.allows b h (.launch c) = true)
    (hst : w.stage = .idle) : Hosts b (h ++ [⟨w, .launch c⟩]) (w.perform b (.launch c)) := by
  have hd : w.demand? b (.launch c) = some (some .registering, .register) := by
    simp only [demand?, hst, hb]
  have hall' := allows_set hall (perform_of_demand hb (.inl rfl) hd rfl).1
  obtain ⟨t, answer, hperform, hf, hnone, hone⟩ :=
    (hst ▸ hw.fits).register (set_of_run hrun) hall'
  have hstays := hw.stays
  rw [hst] at hstays
  have hleft : departures (setHistory b h) = [] :=
    (List.append_eq_nil_iff.1 (List.map_eq_nil_iff.1 hstays)).1
  refine hosts_of_call hb (.inl rfl) hd rfl hperform hf ?_
  rw [hleft, endings, hnone]
  exact hone

/-- The process destroys the set. -/
theorem Hosts.destroy (hw : Hosts b h w) (hall : w.allows b h (.proceed c) = true)
    {failure : Option SupervisionError}
    (hd : w.demand? b (.proceed c) = some (some (.stopping failure), .destroy))
    (hsettles : Settles b.root w.shutdown failure (initOutcomes (setHistory b h)))
    (hl : w.site.set.lifecycle ≠ .terminated) (hc : w.site.set.calls = [])
    (hone : w.stage.registered b.root = [b.root]) :
    Hosts b (h ++ [⟨w, .proceed c⟩]) (w.perform b (.proceed c)) := by
  have hall' := allows_set hall (perform_of_demand hb (.inr rfl) hd rfl).1
  obtain ⟨t, answer, hperform, hf, hnone⟩ :=
    Fits.destroy hsettles (set_of_run hrun) hall' hl hc
  refine hosts_of_call hb (.inr rfl) hd rfl hperform hf ?_
  rw [hw.stays_of_sublist (hnone ▸ List.nil_sublist _), hone]

/-- The process goes on. -/
theorem Hosts.proceed (hw : Hosts b h w) (hall : w.allows b h (.proceed c) = true)
    (hd : (w.demand? b (.proceed c)).isSome = true) :
    Hosts b (h ++ [⟨w, .proceed c⟩]) (w.perform b (.proceed c)) := by
  have hfits := hw.fits
  generalize hst : w.stage = stage at hfits
  cases hfits with
  | idle _ _ _ => simp [demand?, hst] at hd
  | initializing _ _ _ _ => simp [demand?, hst] at hd
  | stopping _ _ => simp [demand?, hst] at hd
  | ended _ _ _ _ => simp [demand?, hst] at hd
  | registered hl hr htask ho =>
    have hd : w.demand? b (.proceed c) = some (some .initializing, .init) := by
      simp only [demand?, hst]
      rfl
    obtain ⟨t, answer, hperform, hf, hsame⟩ := (Fits.registered hl hr htask ho).init
      (set_of_run hrun) (allows_set hall (perform_of_demand hb (.inr rfl) hd rfl).1)
    refine hosts_of_call hb (.inr rfl) hd rfl hperform hf ?_
    rw [hw.stays_of_sublist (hsame ▸ List.Sublist.refl _), hst]
    rfl
  | initialized hl hc ho =>
    have hstage : (w.perform b (.proceed c)).stage = .busy .serving .shutdown := by
      show w.nextStage b (.proceed c) = _
      simp only [nextStage, demand?, hst]
      rfl
    refine hw.apart ?_ ?_ ?_
    · simp only [setEvent?, siteEvent?, demand?, hst]
      rfl
    · exact hstage ▸ .serving hl hc ho
    · rw [hstage, hst]
      rfl
  | @failed f hl hc ho =>
    refine hw.destroy hb hrun hall ?_ (ho ▸ Settles.failed f) (by simp [hl]) hc (hst ▸ rfl)
    simp only [demand?, hst]
    rfl
  | serving hl hc ho =>
    have hasked : w.shutdown = true := by
      by_contra hno
      simp [demand?, hst, hno] at hd
    refine hw.destroy hb hrun hall ?_ (ho ▸ Settles.asked hasked) (by simp [hl]) hc (hst ▸ rfl)
    simp only [demand?, hst, hasked]
    rfl
  | @stopped failure hl hc hq hsettles =>
    have hd := demand?_of_stopped (b := b) c hst
    have hstage : (w.perform b (.proceed c)).stage = .ended (resultOf failure) := by
      show w.nextStage b (.proceed c) = _
      simp only [nextStage, hd, Option.elim_some]
      rfl
    refine hw.apart ?_ ?_ ?_
    · simp only [setEvent?, siteEvent?, hd, Option.bind_some, demandEvent?]
      cases w.pool? b <;> rfl
    · exact hstage ▸ .ended hl hc hq (hsettles.mono shutdown_perform)
    · rw [hstage, hst]
      rfl

end Demands

/-- What others do at the site leaves the set as it should be. -/
theorem Hosts.others (hw : Hosts b h w) (hrun : (hostSystem b υ).Run h w)
    (hall : w.allows b h e = true) (he : w.setEvent? b e = some e') (hb : e'.begins? = none)
    (hab : ∀ c, e' ≠ .abandon c) (hu : ∀ task, e' ≠ .unregister task)
    (hdrop : e' = .drop → w.stage.isEnded = true)
    (hstage : (w.perform b e).stage = w.stage.hear e'.caller? (w.site.set.perform e').2) :
    Hosts b (h ++ [⟨w, e⟩]) (w.perform b e) := by
  have hfits := hw.fits
  obtain ⟨hf, hsub⟩ := hfits.perform (set_of_run hrun) (allows_set hall he) hb hab hu fun hd => by
    have hended := hdrop hd
    generalize w.stage = stage at hfits hended
    cases hfits with
    | ended hl _ _ _ => exact hl
    | _ => contradiction
  refine hosts_of_changes he ?_ ?_
  · rw [hstage]
    exact hf.same shutdown_perform rfl rfl (fun _ => rfl) fun _ hq => hq
  · rw [hw.stays_of_sublist hsub, hstage, HostStage.registered_hear]

/-- A request to stop cancels the root token of the set, if it comes to that. -/
theorem siteEvent?_of_request {x : SiteEvent κ ξ υ}
    (he : (∃ number, e = .signal number) ∨ e = .cancel ∨ e = .getDefault)
    (hx : w.siteEvent? b e = some x) : x = .set .cancelRoot := by
  have hevent : w.siteEvent? b e =
      if w.isRequest b e && !w.shutdown then some (.set .cancelRoot) else none := by
    rcases he with ⟨number, rfl⟩ | rfl | rfl <;> rfl
  rw [hevent] at hx
  split at hx
  · exact (Option.some.inj hx).symm
  · contradiction

theorem cancelRoot_of_request (he : (∃ number, e = .signal number) ∨ e = .cancel)
    (hset : w.setEvent? b e = some e') : e' = .cancelRoot := by
  obtain ⟨x, hx, hx'⟩ := Option.bind_eq_some_iff.1 hset
  obtain rfl := siteEvent?_of_request (he.imp_right .inl) hx
  exact (Option.some.inj hx').symm

/-- Whatever happens to a process, its set is as its stage says. -/
theorem hosts_of_run (hb : b.process.startFault? = none) (hrun : (hostSystem b υ).Run h w) :
    Hosts b h w := by
  induction hrun with
  | @start w hs =>
    obtain ⟨-, hset, hw⟩ := hs
    have hidle : w.stage = .idle := by rw [hw]
    refine ⟨?_, ?_⟩
    · rw [hidle, hset]
      exact .idle rfl rfl rfl
    · rw [hidle, hset]
      rfl
  | @next h w e hrun hall ih =>
    show Hosts b _ (w.perform b e)
    have hall : w.allows b h e = true := hall
    have hpromise := (Bool.and_eq_true_iff.1 hall).2
    have hsame : Fits b.root (w.perform b e).shutdown (initOutcomes (setHistory b h)) w.site.set
        w.stage := ih.fits.same shutdown_perform rfl rfl (fun _ => rfl) fun _ hq => hq
    cases e with
    | launch c =>
      refine ih.launch hb hrun hall ?_
      generalize w.stage = stage at hpromise
      cases stage with
      | idle => rfl
      | _ => contradiction
    | proceed c => exact ih.proceed hb hrun hall hpromise
    | signal number =>
      cases he : w.setEvent? b (.signal number) with
      | none => exact ih.apart he hsame rfl
      | some e' =>
        obtain rfl := cancelRoot_of_request (.inl ⟨_, rfl⟩) he
        exact ih.others hrun hall he rfl nofun nofun nofun HostStage.hear_none.symm
    | cancel =>
      cases he : w.setEvent? b .cancel with
      | none => exact ih.apart he hsame rfl
      | some e' =>
        obtain rfl := cancelRoot_of_request (.inr rfl) he
        exact ih.others hrun hall he rfl nofun nofun nofun HostStage.hear_none.symm
    | getDefault => exact ih.apart rfl hsame rfl
    | site e =>
      cases e with
      | set e =>
        refine ih.others hrun hall rfl ?_ ?_ ?_ ?_ rfl
        · cases e <;> simp_all [permits, SetEvent.begins?]
        · rintro c rfl
          contradiction
        · rintro task rfl
          contradiction
        · rintro rfl
          exact hpromise
      | pool p e => exact ih.apart rfl hsame rfl
      | handOver l c => exact ih.apart rfl hsame rfl

end Host

end Overseer
