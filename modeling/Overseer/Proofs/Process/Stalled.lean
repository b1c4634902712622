import Overseer.Proofs.Process.Lifetime
import Overseer.Proofs.Site.Reported
import Overseer.Proofs.Supervision.Reporting

/-!
# A process that is stalled

A process that was asked to stop destroys the set of its root task, which waits for the loop of that
task, and releases its pool when that is done. If the root task has failed, its loop hands the error
over to a pool, and waits there if the pool is full. That may be the very pool that the process is
to release.

`stalled_of_run` says that nothing else stalls a process. When nobody can go on any more
(`AtRest`) although the process was asked to stop and no code of its root task is under way, the
process has not ended exactly if a loop is parked with its report in a pool that is open and full
(`Stalls`). `shutdown_stalls` is a run that gets there.
-/

namespace Overseer

variable {κ ξ υ : Type}

namespace Pool

/-- A pool in which somebody is parked when everybody who was woken has had a turn is open and full,
and has no idle worker. -/
structure IsFull (p : Pool υ) : Prop where
  isOpen : p.closed = false
  bounded : p.capacity.isSome = true
  noneIdle : p.idle.items = []
  full : p.cap ≤ p.running

theorem isFull_of_parked {h : List (Occurrence (Pool υ) (PoolEvent υ))} {p : Pool υ} {c : CallerId}
    (hrun : (poolSystem υ).Run h p) (hquiet : p.isQuiet = true)
    (hc : c ∈ p.callers.map (·.id)) : p.IsFull := by
  have howes := owes_of_run hrun
  have hwoken : p.notifier.woken = [] := by
    simp only [isQuiet, Bool.and_eq_true, List.isEmpty_iff] at hquiet
    exact hquiet.1
  have hknown : c ∈ p.notifier.known := howes.known.mem_iff.1 hc
  simp only [Notifier.known, hwoken, List.map_nil, List.append_nil] at hknown
  have hwaiting := List.ne_nil_of_mem hknown
  have hopenings : p.openings = 0 := by
    simpa [Notifier.singles, hwoken] using howes.balance hwaiting
  obtain ⟨n, hn⟩ := Option.isSome_iff_exists.1 (howes.bounded hwaiting)
  simp only [openings, hn, Option.getD_some, Nat.add_eq_zero_iff] at hopenings
  refine ⟨Bool.eq_false_iff.2 fun hclosed => hwaiting (howes.closed hclosed),
    howes.bounded hwaiting, List.length_eq_zero_iff.1 hopenings.1, ?_⟩
  simp only [cap, hn]
  omega

end Pool

namespace Site

variable {w : Site κ ξ υ} {h : List (SiteOccurrence κ ξ υ)} {r : Report κ}

/-- A loop that hands over an error has made a report. -/
theorem report_of_reporting (hrun : (siteSystem κ ξ υ).Run h w) {y : Loop} (hy : y ∈ w.set.loops)
    (hphase : y.phase = .reporting) : ∃ r ∈ reports h, r.loop = y.id := by
  induction hrun generalizing y with
  | @start w hs =>
    obtain ⟨⟨name, pool, hset⟩, -⟩ := hs
    rw [hset] at hy
    exact absurd hy List.not_mem_nil
  | @next h w e hrun hall ih =>
    have hearlier : (∃ x ∈ w.set.loops, x.id = y.id ∧ x.phase = .reporting) →
        ∃ r ∈ reports (h ++ [⟨w, e⟩]), r.loop = y.id := by
      rintro ⟨x, hx, hid, hxphase⟩
      obtain ⟨r, hr, hloop⟩ := ih hx hxphase
      rw [reports_append]
      exact ⟨r, List.mem_append_left _ hr, hloop.trans hid⟩
    have hy : y ∈ (w.perform e).set.loops := hy
    rw [set_perform] at hy
    cases e with
    | pool p e => exact hearlier ⟨y, hy, rfl, hphase⟩
    | handOver l c => exact hearlier ⟨y, hy, rfl, hphase⟩
    | set e =>
      have hsound := TaskSet.sound_of_run (set_of_run hrun)
      have hallowed := (Bool.and_eq_true_iff.1 hall).1
      by_cases hran : ∃ l now ending, e = .ran l now ending
      · obtain ⟨l, now, ending, rfl⟩ := hran
        rcases (TaskSet.reports_ran w.set l now ending).loops y hy hphase with hold | hnew
        · exact hearlier hold
        · obtain ⟨hid, callback, task, error, pool, hturn⟩ := hnew
          refine ⟨⟨l, callback, task, error, pool.getD w.defaultPool⟩, ?_, hid.symm⟩
          rw [reports_append]
          refine List.mem_append_right _ ?_
          simp [report?, hturn]
      · have hhushed := TaskSet.hushed_of_perform hsound hallowed
          fun l now ending he => hran ⟨l, now, ending, he⟩
        exact hearlier (hhushed.loops y hy hphase)

/-- What is reported goes to the callback of some registration, in its own pool, else in that of the
set, else in the default pool. -/
theorem registration_of_report? {e : SiteEvent κ ξ υ} (hr : w.report? e = some r) :
    ∃ a ∈ w.set.registry, a.options.onError = some r.callback ∧
      r.pool = (a.options.pool.or w.set.pool).getD w.defaultPool := by
  unfold report? at hr
  split at hr
  · split at hr
    · rename_i callback task error pool hturn
      obtain rfl := Option.some.inj hr
      obtain ⟨a, ha, hcallback, rfl⟩ := TaskSet.registration_of_report hturn
      exact ⟨a, ha, hcallback, rfl⟩
    · contradiction
  · contradiction

end Site

/-- The pool in which the error callback of the root task is to run. -/
def Boundary.callbackPool (b : Boundary κ ξ) (defaultPool : PoolId) : PoolId :=
  (b.options.pool.or b.process.pool).getD defaultPool

/-- Has the process been launched, and not ended? -/
def HostStage.isPending : HostStage → Bool
  | .busy _ _ => true
  | _ => false

namespace Host

open TaskSet

variable {b : Boundary κ ξ} {w : Host κ ξ υ} {h : List (HostOccurrence κ ξ υ)}
  {e : HostEvent κ ξ υ} {r : Report κ} {now : Nat}

/-! ## Reports of the root task -/

/-- Only the process makes calls on the set of its root task. -/
theorem request_of_begin {c : CallId} {request : Request κ ξ} {cancelled : Bool}
    (hall : w.allows b h e = true) (he : w.setEvent? b e = some (.begin c request cancelled)) :
    ∃ d, b.request? d = some request := by
  obtain ⟨x, hx, hx'⟩ := Option.bind_eq_some_iff.1 he
  have hdemand : ∀ {c' : CallId} {d : ProcessDemand}, w.demandEvent? b c' d = some x →
      ∃ d, b.request? d = some request := by
    intro c' d hd
    unfold demandEvent? at hd
    split at hd
    · obtain ⟨p, -, rfl⟩ := Option.map_eq_some_iff.1 hd
      contradiction
    · obtain ⟨request', hrequest, rfl⟩ := Option.map_eq_some_iff.1 hd
      obtain ⟨-, rfl, -⟩ := SetEvent.begin.inj (Option.some.inj hx')
      exact ⟨d, hrequest⟩
  cases e with
  | launch c' =>
    obtain ⟨d, -, hd⟩ := Option.bind_eq_some_iff.1 hx
    exact hdemand hd
  | proceed c' =>
    obtain ⟨d, -, hd⟩ := Option.bind_eq_some_iff.1 hx
    exact hdemand hd
  | site e =>
    obtain rfl := Option.some.inj hx
    cases e with
    | set e =>
      obtain rfl := Option.some.inj hx'
      exact absurd (Bool.and_eq_true_iff.1 hall).2 (by simp [permits])
    | _ => contradiction
  | _ =>
    -- the token is cancelled, if the event does anything to the site
    simp only [siteEvent?] at hx
    split at hx
    · obtain rfl := Option.some.inj hx
      exact absurd hx' (by simp [Site.setEvent?])
    · contradiction

/-- What is registered has the options of the root task. -/
theorem options_of_root (hrun : (hostSystem b υ).Run h w) :
    ∀ a ∈ w.site.set.registry, a.options = b.options := by
  intro a ha
  obtain ⟨o, ho, cancelled, hevent⟩ := (requested_of_run (set_of_run hrun)).registered a ha
  obtain ⟨o', ho', e', he', rfl⟩ := mem_setHistory ho
  obtain ⟨pre, -, hall, -⟩ := hrun.of_mem ho'
  obtain rfl : e' = _ := hevent
  obtain ⟨d, hd⟩ := request_of_begin hall he'
  cases d with
  | register => exact (Request.register.inj (Option.some.inj hd)).2.2.1.symm
  | _ => simp [Boundary.request?, Registration.origin] at hd

/-- The set of a process has the pool of the process. -/
theorem pool_of_run (hrun : (hostSystem b υ).Run h w) : w.site.set.pool = b.process.pool := by
  induction hrun with
  | start hs => rw [hs.2.1]
  | @next h w e hrun hall ih =>
    show (w.perform b e).site.set.pool = _
    rw [set_perform]
    cases he : w.setEvent? b e with
    | none => exact ih
    | some e' =>
      exact (pool_perform (sound_of_run (set_of_run hrun)) (allows_set hall he)).trans ih

/-- What the root task reports goes to its callback, in the pool for that. -/
theorem reports_of_root (hrun : (hostSystem b υ).Run h w) :
    ∀ r ∈ Site.reports (sitePart b h), b.options.onError = some r.callback ∧
      r.pool = b.callbackPool w.site.defaultPool := by
  induction hrun with
  | start hs => exact fun r hr => absurd hr List.not_mem_nil
  | @next h w e hrun hall ih =>
    intro r hr
    show _ ∧ r.pool = b.callbackPool (w.perform b e).site.defaultPool
    rw [defaultPool_perform]
    rw [sitePart_append] at hr
    cases he : w.siteEvent? b e with
    | none =>
      rw [he, Option.map_none, Option.toList_none, List.append_nil] at hr
      exact ih r hr
    | some x =>
      rw [he, Option.map_some, Option.toList_some, Site.reports_append] at hr
      rcases List.mem_append.1 hr with hr | hr
      · exact ih r hr
      · obtain ⟨a, ha, hcallback, hpool⟩ := Site.registration_of_report? (Option.mem_toList.1 hr)
        rw [options_of_root hrun a ha] at hcallback hpool
        rw [pool_of_run hrun] at hpool
        exact ⟨hcallback, hpool⟩

/-- The loop has submitted its report, in a call of that number. -/
def HandedOver (h : List (HostOccurrence κ ξ υ)) (l : LoopId) (c : CallerId) (r : Report κ) :
    Prop :=
  ∃ o ∈ h, o.event = .site (.handOver l c) ∧ o.before.site.due? l = some r

theorem handedOver_of_submission (hr : r ∈ Site.submissions (sitePart b h)) :
    ∃ c, HandedOver h r.loop c r := by
  obtain ⟨x, hx, hr⟩ := List.mem_filterMap.1 hr
  obtain ⟨o, ho, hpart⟩ := List.mem_filterMap.1 hx
  obtain ⟨e, he, rfl⟩ := Option.map_eq_some_iff.1 hpart
  cases e with
  | handOver l c =>
    have hr : o.before.site.due? l = some r := hr
    obtain rfl : r.loop = l := by simpa using List.find?_some hr
    refine ⟨c, o, ho, ?_, hr⟩
    cases hevent : o.event with
    | site e =>
      rw [hevent] at he
      rw [Option.some.inj he]
    | launch c' =>
      rw [hevent] at he
      obtain ⟨d, -, hd⟩ := Option.bind_eq_some_iff.1 he
      unfold demandEvent? at hd
      split at hd <;> simp at hd
    | proceed c' =>
      rw [hevent] at he
      obtain ⟨d, -, hd⟩ := Option.bind_eq_some_iff.1 he
      unfold demandEvent? at hd
      split at hd <;> simp at hd
    | _ =>
      rw [hevent] at he
      simp only [siteEvent?] at he
      split at he <;> simp at he
  | _ => contradiction

/-! ## At rest -/

/-- Nobody can go on: not the process, no call and no loop of the set, and nobody in any of the
pools. What was reported has been submitted, and who waits in a pool for an answer to that has not
got it. -/
structure AtRest (b : Boundary κ ξ) (h : List (HostOccurrence κ ξ υ)) (w : Host κ ξ υ) (now : Nat) :
    Prop where
  process : ∀ c, w.allows b h (.proceed c) = false
  set : IsStill w.site.set now
  pools : ∀ p, (w.site.pools p).isQuiet = true
  due : w.site.due = []
  reports : ∀ y ∈ w.site.set.loops, y.phase = .reporting → ∀ c r, HandedOver h y.id c r →
    c ∈ (w.site.pools r.pool).callers.map (·.id)

/-- The loop has reported that the root task failed, and is parked with the report in the pool that
is to run the callback, as that is full. -/
structure Stalls (b : Boundary κ ξ) (h : List (HostOccurrence κ ξ υ)) (w : Host κ ξ υ) (y : Loop) :
    Prop where
  task : y.task = b.root
  reporting : y.phase = .reporting
  callback : b.options.onError.isSome = true
  parked : ∃ c r, HandedOver h y.id c r ∧ r.pool = b.callbackPool w.site.defaultPool ∧
    c ∈ (w.site.pools r.pool).callers.map (·.id)
  pool : (w.site.pools (b.callbackPool w.site.defaultPool)).IsFull

theorem stalls_of_reporting (hb : b.process.startFault? = none) (hrun : (hostSystem b υ).Run h w)
    (hrest : AtRest b h w now) {y : Loop} (hy : y ∈ w.site.set.loops)
    (hphase : y.phase = .reporting) : Stalls b h w y := by
  have hsite := site_of_run hrun
  obtain ⟨r, hr, hloop⟩ := Site.report_of_reporting hsite hy hphase
  obtain ⟨hcallback, hpool⟩ := reports_of_root hrun r hr
  have hsubmitted : r ∈ Site.submissions (sitePart b h) := by
    have hperm := Site.due_of_run hsite
    rw [hrest.due, List.append_nil] at hperm
    exact hperm.mem_iff.2 hr
  obtain ⟨c, hover⟩ := handedOver_of_submission hsubmitted
  rw [hloop] at hover
  have hparked := hrest.reports y hy hphase c r hover
  exact {
    task := task_of_loop hb hrun hy
    reporting := hphase
    callback := hcallback ▸ rfl
    parked := ⟨c, r, hover, hpool, hparked⟩
    pool := hpool ▸ Pool.isFull_of_parked (Site.pool_of_run r.pool hsite) (hrest.pools _) hparked }

/-- A process that was asked to stop, and has no code of its root task under way, is stalled exactly
by a loop that is parked with its report in a full pool. -/
theorem stalled_of_run (hb : b.process.startFault? = none) (hrun : (hostSystem b υ).Run h w)
    (hrest : AtRest b h w now) (hasked : w.shutdown = true)
    (hinit : ∀ x ∈ w.site.set.calls, x.phase.initTicket? = none)
    (hidle : ∀ y ∈ w.site.set.loops, y.phase ≠ .running) :
    w.stage.isPending = true ↔ ∃ y ∈ w.site.set.loops, Stalls b h w y := by
  constructor
  · intro hpending
    cases awaits_of_still hb hrun hrest.set hrest.process with
    | launch hst => simp [hst, HostStage.isPending] at hpending
    | nothing hst => simp [hst, HostStage.isPending] at hpending
    | init hst hcalls _ =>
      have hnone := hinit _ (hcalls ▸ List.mem_cons_self)
      contradiction
    | request _ hno => exact absurd (hno.symm.trans hasked) (by decide)
    | loop _ hy _ hphase =>
      exact ⟨_, hy, stalls_of_reporting hb hrun hrest hy (hphase.resolve_left (hidle _ hy))⟩
  · rintro ⟨y, hy, hstalls⟩
    have hlifecycle : w.site.set.lifecycle = .started ∨ w.site.set.lifecycle = .terminated :=
      (sound_of_run (set_of_run hrun)).idle (List.ne_nil_of_mem hy)
    have hfits := (hosts_of_run hb hrun).fits
    generalize hst : w.stage = stage at hfits
    cases hfits with
    | idle hl _ _ => simp [hl] at hlifecycle
    | ended _ _ hquiet _ =>
      have hended : y.phase = .ended := by simpa using List.all_eq_true.1 hquiet y hy
      exact absurd (hended.symm.trans hstalls.reporting) (by decide)
    | _ => rfl

/-! ## A stalled process -/

/-- The pool of the process is full when the root task panics. Its report is parked, and then the
token is cancelled. -/
def stalledRun : List (HostEvent Unit Unit Nat) :=
  [.site (.pool 1 (.submit 0 (.other 0))), .site (.pool 1 (.pollWorker 0)), .launch 0, .proceed 1,
    .site (.set (.initialized 1 (.ok ()) false)), .proceed 2, .site (.set (.pollLoop 0 0)),
    .site (.set (.pollLoop 0 1)), .site (.set (.ran 0 1 (.panic (.text "boom")))),
    .site (.handOver 0 1), .cancel, .proceed 3]

/-- Can nobody go on, if only pool 1 has been used? -/
def restsAt (b : Boundary κ ξ) (now : Nat) (h : List (HostOccurrence κ ξ υ)) (w : Host κ ξ υ) :
    Bool :=
  (w.demand? b (.proceed 0)).isNone && w.site.set.calls.all (fun x => !w.site.set.canGoOn x) &&
    w.site.set.loops.all (fun y => !y.isDue now) && (w.site.pools 1).isQuiet &&
    ((sitePart b h).all fun o => (o.before.poolEvent? o.event).all (·.1 == 1)) &&
    w.site.due.isEmpty && h.all fun o =>
      match o.event with
      | .site (.handOver l c) => (o.before.site.due? l).all fun r =>
        ((w.site.pools r.pool).callers.map (·.id)).contains c
      | _ => true

/-- A pool that has not been used is quiet. -/
theorem isQuiet_of_unused {p : PoolId} {v : Site κ ξ υ} {hs : List (SiteOccurrence κ ξ υ)}
    (hrun : (siteSystem κ ξ υ).Run hs v) (hp : poolPart p hs = []) :
    (v.pools p).isQuiet = true := by
  have hpool := Site.pool_of_run p hrun
  generalize poolPart p hs = part at hpool hp
  generalize v.pools p = q at hpool
  cases hpool with
  | start hstart =>
    obtain ⟨capacity, options, now, p₀, hnew, rfl⟩ := hstart
    obtain ⟨c, rfl⟩ := Pool.exists_eq_create hnew
    unfold Pool.create Pool.startScavenger
    dsimp only
    split <;> rfl
  | next _ _ => simp at hp

theorem atRest_of_restsAt (hrun : (hostSystem b υ).Run h w) (hcheck : restsAt b now h w = true) :
    AtRest b h w now := by
  simp only [restsAt, Bool.and_eq_true, List.all_eq_true, Bool.not_eq_true',
    Option.isNone_iff_eq_none, List.isEmpty_iff] at hcheck
  obtain ⟨⟨⟨⟨⟨⟨hdemand, hcalls⟩, hloops⟩, hquiet⟩, hothers⟩, hdue⟩, hparked⟩ := hcheck
  have hset := set_of_run hrun
  refine ⟨fun c => ?_, ?_, fun p => ?_, hdue, fun y _ _ c r hover => ?_⟩
  · have hnone : w.demand? b (.proceed c) = none := hdemand
    simp [allows, hnone]
  · exact (isStill_iff (orderly_of_run hset) (sound_of_run hset).loopIds).2 ⟨hcalls, hloops⟩
  · by_cases hp : p = 1
    · exact hp ▸ hquiet
    · refine isQuiet_of_unused (site_of_run hrun) (List.filterMap_eq_nil_iff.2 fun o ho => ?_)
      have honly := hothers o ho
      unfold Site.poolPart?
      cases hx : o.before.poolEvent? o.event with
      | none => rfl
      | some x =>
        rw [hx, Option.all_some, beq_iff_eq] at honly
        rw [Option.bind_some, if_neg (honly ▸ Ne.symm hp)]
  · obtain ⟨o, ho, hevent, hreport⟩ := hover
    have hmem := hparked o ho
    simp only [hevent, hreport, Option.all_some, List.contains_iff_mem] at hmem
    exact hmem

/-- Nobody can go on at the end of `stalledRun`, and no code of the root task is under way. -/
theorem exists_stalled : ∃ (h : List (HostOccurrence Unit Unit Nat)) (w : Host Unit Unit Nat),
    (hostSystem reporting Nat).Run h w ∧ AtRest reporting h w 1 ∧ w.shutdown = true ∧
      (∀ x ∈ w.site.set.calls, x.phase.initTicket? = none) ∧
      (∀ y ∈ w.site.set.loops, y.phase ≠ .running) ∧ w.stage.isPending = true := by
  have hpool : (poolSystem (Work Unit Nat)).starts (Pool.create (some 1) {} 0).collect.2 :=
    ⟨1, {}, 0, _, rfl, rfl⟩
  have hstart : (hostSystem reporting Nat).starts { site := {
      set := { name := "process", pool := some 1 },
      pools := fun _ => (Pool.create (some 1) {} 0).collect.2, defaultPool := 0 } } :=
    ⟨⟨starts_new _ _, fun _ => hpool, rfl⟩, rfl, rfl⟩
  obtain ⟨h, w, hrun, hcheck⟩ := System.exists_run_of_replay hstart stalledRun
    (fun h w => restsAt reporting 1 h w && w.shutdown &&
      w.site.set.calls.all (fun x => x.phase.initTicket?.isNone) &&
      w.site.set.loops.all (fun y => y.phase != .running) && w.stage.isPending)
    (by decide +kernel)
  simp only [Bool.and_eq_true, List.all_eq_true, Option.isNone_iff_eq_none, bne_iff_ne] at hcheck
  obtain ⟨⟨⟨⟨hrest, hasked⟩, hinit⟩, hidle⟩, hpending⟩ := hcheck
  exact ⟨h, w, hrun, atRest_of_restsAt hrun hrest, hasked, hinit, hidle, hpending⟩

theorem stalled_of_run_full : ∃ (h : List (HostOccurrence Unit Unit Nat)) (w : Host Unit Unit Nat),
    reporting.process.startFault? = none ∧ (hostSystem reporting Nat).Run h w ∧
      AtRest reporting h w 1 ∧ w.shutdown = true ∧
      (∀ x ∈ w.site.set.calls, x.phase.initTicket? = none) ∧
      (∀ y ∈ w.site.set.loops, y.phase ≠ .running) ∧ w.stage.isPending = true ∧
      (w.stage.isPending = true ↔ ∃ y ∈ w.site.set.loops, Stalls reporting h w y) := by
  obtain ⟨h, w, hrun, hrest, hasked, hinit, hidle, hpending⟩ := exists_stalled
  have hb : reporting.process.startFault? = none := by decide +kernel
  exact ⟨h, w, hb, hrun, hrest, hasked, hinit, hidle, hpending,
    stalled_of_run hb hrun hrest hasked hinit hidle⟩

/-- A process with a pool of its own that was asked to stop can come to rest before its end, with no
code of its root task under way. -/
theorem shutdown_stalls : ¬ ∀ (h : List (HostOccurrence Unit Unit Nat)) (w : Host Unit Unit Nat)
    (now : Nat), (hostSystem reporting Nat).Run h w → AtRest reporting h w now →
      w.shutdown = true → (∀ x ∈ w.site.set.calls, x.phase.initTicket? = none) →
      (∀ y ∈ w.site.set.loops, y.phase ≠ .running) → w.stage.isPending = false := by
  obtain ⟨h, w, hrun, hrest, hasked, hinit, hidle, hpending⟩ := exists_stalled
  exact fun hends => absurd hpending (by simp [hends h w 1 hrun hrest hasked hinit hidle])

end Host

end Overseer
