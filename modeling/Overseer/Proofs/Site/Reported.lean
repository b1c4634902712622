import Overseer.Proofs.Site.Events
import Overseer.Proofs.Supervision.Failure

/-!
# A failure is reported once

A task that fails while it is registered leaves the registry and is torn down. If its registration
has a callback, one report of its error is due from then on, until the loop submits it to the pool
that the report names, and no report of that task is ever made but this one (`IsReported`). The
pools start the callback at most once, and not if it was turned down.

`failure_of_run` says so of every history in which no task is registered again after it left. As
what a loop that fails takes out of the registry is found by the task alone, a task that has
returned could be reported by a loop of its earlier stay.
-/

namespace Overseer

variable {κ ξ υ : Type}

namespace Site

variable {w w₀ : Site κ ξ υ} {h pre post : List (SiteOccurrence κ ξ υ)} {r : Report κ}
  {p : PoolId} {i : TaskId}

/-- The reports of the errors of a task. -/
def about (i : TaskId) (rs : List (Report κ)) : List (Report κ) :=
  rs.filter fun r => r.task.id == i

/-- The reports whose callbacks a pool has started. -/
def started (p : PoolId) (h : List (SiteOccurrence κ ξ υ)) : List (Report κ) :=
  ((starts (poolPart p h)).map Prod.snd).filterMap Work.report?

/-- The reports that a pool has refused, or whose submission was dropped. -/
def turnedDown (p : PoolId) (h : List (SiteOccurrence κ ξ υ)) : List (Report κ) :=
  (refusals (poolPart p h) ++ withdrawals (poolPart p h)).filterMap Work.report?

/-- What is reported of a loop's task that has failed: the error goes to the callback of the
registration, in its own pool, else in that of the set, else in the default pool. -/
def reportFor? (w : Site κ ξ υ) (x : Loop) (a : Registration κ ξ) (error : Fault) :
    Option (Report κ) :=
  a.options.onError.map fun callback =>
    ⟨x.id, callback, x.task, error, (a.options.pool.or w.set.pool).getD w.defaultPool⟩

/-- Of all the reports of a task in a history `h`, which is `pre` up to the failure of the task and
`post` after it, the one that is named is the only one, if one is. It is submitted or due, and
submitted before its loop hears of it. Its pool starts the callback or turns it down, once at
most, and nobody else does. -/
structure IsReported (h pre post : List (SiteOccurrence κ ξ υ)) (w : Site κ ξ υ) (i : TaskId)
    (report : Option (Report κ)) : Prop where
  before : about i (submissions pre) = []
  once : about i (submissions post ++ w.due) = report.toList
  made : ∀ r, report = some r → ∀ mid o rest, post = mid ++ o :: rest → ∀ name result,
    o.event = .set (.reported r.loop name result) → about i (submissions mid) = [r]
  starts : ∀ p, (about i (started p h ++ turnedDown p h)).Subperm
    (report.toList.filter fun r => r.pool == p)
  /-- A callback that was turned down is not started. -/
  refused : ∀ p, about i (turnedDown p h) ≠ [] → ∀ q, about i (started q h) = []

/-! ## Reports -/

/-- A report is made by a loop that has failed. -/
theorem ran_of_report (hr : r ∈ reports h) : ∃ o ∈ setPart h, ∃ l now ending pool,
    o.event = .ran l now ending ∧
      (o.before.ran l now ending).2 = .report r.callback r.task r.error pool := by
  obtain ⟨⟨w, e⟩, ho, hr⟩ := List.mem_filterMap.1 hr
  cases e with
  | set e =>
    cases e with
    | ran l now ending =>
      simp only [report?] at hr
      split at hr
      · rename_i callback task error pool hturn
        obtain rfl := Option.some.inj hr
        exact ⟨⟨w.set, .ran l now ending⟩, List.mem_filterMap.2 ⟨_, ho, rfl⟩, l, now, ending, pool,
          rfl, hturn⟩
      · contradiction
    | _ => contradiction
  | _ => contradiction

theorem report?_of_handing {l : LoopId} {now : Nat} {ending : Ending Unit} {x : Loop}
    {a : Registration κ ξ} {error : Fault} (hx : x.id = l)
    (hturn : (w.set.ran l now ending).2 = w.set.handing a x.task error) :
    w.report? (.set (.ran l now ending)) = w.reportFor? x a error := by
  subst hx
  unfold report? reportFor?
  simp only [hturn, TaskSet.handing]
  cases a.options.onError <;> rfl

theorem about_append (i : TaskId) (rs rs' : List (Report κ)) :
    about i (rs ++ rs') = about i rs ++ about i rs' := List.filter_append ..

/-- What a registration asks for is about its task. -/
theorem about_reportFor? (w : Site κ ξ υ) (x : Loop) (a : Registration κ ξ) (error : Fault) :
    about x.task.id (w.reportFor? x a error).toList = (w.reportFor? x a error).toList := by
  unfold reportFor?
  cases a.options.onError <;> simp [about]

theorem reports_split (pre post : List (SiteOccurrence κ ξ υ)) (w : Site κ ξ υ)
    (e : SiteEvent κ ξ υ) :
    reports (pre ++ ⟨w, e⟩ :: post) = reports pre ++ (w.report? e).toList ++ reports post := by
  rw [← reports_append, reports, reports, reports, ← List.filterMap_append]
  simp

/-- An event of the set submits nothing. -/
theorem submissions_split (pre post : List (SiteOccurrence κ ξ υ)) (w : Site κ ξ υ)
    (e : SetEvent κ ξ) :
    submissions (pre ++ ⟨w, .set e⟩ :: post) = submissions pre ++ submissions post := by
  simp [submissions, submission?]

section Reports

variable {o : SetOccurrence κ ξ} {mid rest : List (SetOccurrence κ ξ)} {s : TaskSet κ ξ}

/-- A task that is registered has not been reported. -/
theorem about_of_registered (hn : TaskSet.NoReturn (setPart pre ++ o :: rest))
    (hrun : (setSystem κ ξ).Run (setPart pre ++ o :: rest) s)
    (hhas : o.before.registry.has i = true) : about i (reports pre) = [] := by
  refine List.filter_eq_nil_iff.2 fun r hr hi => ?_
  obtain ⟨o', ho', l, now, ending, pool, he, hturn⟩ := ran_of_report hr
  obtain ⟨-, x, hx, hid⟩ :=
    TaskSet.ending_of_report hrun (List.mem_append_left _ ho') he hturn
  have habsent := hn.absent (List.mem_flatMap.2 ⟨o', ho', hx⟩)
  rw [hid, eq_of_beq hi, hhas] at habsent
  contradiction

/-- A task that is not registered is not reported. -/
theorem about_of_absent (hrun : (setSystem κ ξ).Run (mid ++ setPart post) s)
    (habsent : ∀ o ∈ setPart post, o.before.registry.has i = false) :
    about i (reports post) = [] := by
  refine List.filter_eq_nil_iff.2 fun r hr hi => ?_
  obtain ⟨o, ho, l, now, ending, pool, he, hturn⟩ := ran_of_report hr
  have hhas := (TaskSet.ending_of_report hrun (List.mem_append_right _ ho) he hturn).1
  rw [eq_of_beq hi, habsent o ho] at hhas
  contradiction

end Reports

/-! ## Pools -/

theorem subperm_filterMap {α β : Type} (f : α → Option β) {xs ys : List α} (h : xs.Subperm ys) :
    (xs.filterMap f).Subperm (ys.filterMap f) := by
  obtain ⟨zs, hperm, hsub⟩ := h
  exact ⟨zs.filterMap f, hperm.filterMap f, hsub.filterMap f⟩

/-- A pool starts and turns down what was submitted to it. -/
theorem subperm_submissions (hrun : (siteSystem κ ξ υ).Run h w) (p : PoolId) :
    (started p h ++ turnedDown p h).Subperm ((submissions h).filter fun r => r.pool == p) := by
  rw [← offers_of_pool p hrun, started, turnedDown, ← List.filterMap_append]
  exact subperm_filterMap _ (Pool.subperm_offers (pool_of_run p hrun))

theorem eq_toList_of_perm {α : Type} {xs : List α} {x : Option α} (h : xs.Perm x.toList) :
    xs = x.toList := by
  cases x with
  | none => exact h.eq_nil
  | some x => exact List.perm_singleton.1 h

/-- What pools do with the reports of a task of which at most one is made. -/
theorem starts_of_submissions (hrun : (siteSystem κ ξ υ).Run h w) {report : Option (Report κ)}
    (honce : (about i (submissions h)).Sublist report.toList) (p : PoolId) :
    (about i (started p h ++ turnedDown p h)).Subperm
      (report.toList.filter fun r => r.pool == p) := by
  have hsubmitted := (subperm_submissions hrun p).filter fun r => r.task.id == i
  rw [List.filter_comm] at hsubmitted
  exact hsubmitted.trans (honce.filter _).subperm

/-- A callback that was turned down by a pool is not started by any. -/
theorem not_started_of_turnedDown {report : Option (Report κ)}
    (hstarts : ∀ p, (about i (started p h ++ turnedDown p h)).Subperm
      (report.toList.filter fun r => r.pool == p))
    (hdown : about i (turnedDown p h) ≠ []) (q : PoolId) : about i (started q h) = [] := by
  obtain ⟨r, hr⟩ := List.exists_mem_of_ne_nil _ hdown
  have hmem : r ∈ report.toList.filter fun r => r.pool == p := by
    refine (hstarts p).subset ?_
    rw [about_append]
    exact List.mem_append_right _ hr
  obtain ⟨hreport, hpool⟩ := List.mem_filter.1 hmem
  obtain rfl := Option.mem_toList.1 hreport
  have hsub := hstarts q
  rw [about_append] at hsub
  by_cases hq : r.pool = q
  · -- the pool has the report once, and has turned it down
    obtain rfl : p = q := (eq_of_beq hpool).symm.trans hq
    have hle := hsub.length_le
    have hpos := List.length_pos_iff.2 hdown
    simp only [List.length_append, Option.toList_some, List.filter_singleton, hpool, cond_true,
      List.length_singleton] at hle
    exact List.length_eq_zero_iff.1 (by omega)
  · have hnil : [r].filter (fun r => r.pool == q) = [] := by simpa using hq
    rw [Option.toList_some, hnil] at hsub
    exact (List.append_eq_nil_iff.1 (List.subperm_nil.1 hsub)).1

section Failure

variable {e : SetEvent κ ξ} {report : Option (Report κ)}

/-- If one report of a task is all that is ever made, it is submitted or due. -/
theorem submitted_of_reports (hrun : (siteSystem κ ξ υ).Run (pre ++ ⟨w₀, .set e⟩ :: post) w)
    (hbefore : about i (reports pre) = [])
    (hreport : about i (w₀.report? (.set e)).toList = report.toList)
    (hlater : about i (reports post) = []) :
    about i (submissions pre) = [] ∧ about i (submissions post ++ w.due) = report.toList := by
  have hpre : about i (submissions pre) = [] := by
    have hnone : about i (submissions pre ++ w₀.due) = [] :=
      (hbefore ▸ (due_of_run (hrun.split rfl).1).filter _ : List.Perm _ []).eq_nil
    rw [about_append] at hnone
    exact (List.append_eq_nil_iff.1 hnone).1
  have hall : about i (reports (pre ++ ⟨w₀, .set e⟩ :: post)) = report.toList := by
    rw [reports_split, about_append, about_append, hbefore, hlater, hreport, List.nil_append,
      List.append_nil]
  have honce : about i (submissions (pre ++ ⟨w₀, .set e⟩ :: post) ++ w.due) = report.toList :=
    eq_toList_of_perm (hall ▸ (due_of_run hrun).filter _)
  rw [submissions_split, List.append_assoc, about_append, hpre, List.nil_append] at honce
  exact ⟨hpre, honce⟩

/-- A loop that hears of its submission has nothing due. -/
theorem due?_of_reported {o : SiteOccurrence κ ξ υ} {l : LoopId} {name : String}
    {result : Except PoolError Unit} (hall : o.before.allows h o.event = true)
    (he : o.event = .set (.reported l name result)) : o.before.due? l = none := by
  rw [he] at hall
  have hopen := (Bool.and_eq_true_iff.1 hall).2
  simpa [cutsShort] using hopen

theorem isReported_of_reports (hrun : (siteSystem κ ξ υ).Run (pre ++ ⟨w₀, .set e⟩ :: post) w)
    (hbefore : about i (reports pre) = [])
    (hreport : about i (w₀.report? (.set e)).toList = report.toList)
    (hlater : about i (reports post) = []) :
    IsReported (pre ++ ⟨w₀, .set e⟩ :: post) pre post w i report := by
  obtain ⟨hpre, honce⟩ := submitted_of_reports hrun hbefore hreport hlater
  have hsubmitted : (about i (submissions (pre ++ ⟨w₀, .set e⟩ :: post))).Sublist
      report.toList := by
    rw [submissions_split, about_append, hpre, List.nil_append, ← honce, about_append]
    exact List.sublist_append_left _ _
  have hstarts := starts_of_submissions hrun hsubmitted
  refine ⟨hpre, honce, ?_, hstarts, fun p => not_started_of_turnedDown hstarts⟩
  rintro r rfl mid o rest rfl name result he
  -- the history up to the moment at which the loop hears of it
  have heq : pre ++ ⟨w₀, .set e⟩ :: (mid ++ o :: rest) =
      (pre ++ ⟨w₀, .set e⟩ :: mid) ++ o :: rest := by simp
  obtain ⟨hmid, hall, -⟩ := hrun.split heq
  have hmidway : about i (reports mid) = [] := by
    have hnone : about i (reports (mid ++ o :: rest)) = [] := hlater
    rw [reports, List.filterMap_append, about_append] at hnone
    exact (List.append_eq_nil_iff.1 hnone).1
  have hone := (submitted_of_reports hmid hbefore hreport hmidway).2
  have hnodue : about i o.before.due = [] := by
    refine List.filter_eq_nil_iff.2 fun r' hr' hi => ?_
    have hmem : r' ∈ about i (submissions mid ++ o.before.due) :=
      List.mem_filter.2 ⟨List.mem_append_right _ hr', hi⟩
    rw [hone] at hmem
    obtain rfl := List.mem_singleton.1 hmem
    exact List.find?_eq_none.1 (due?_of_reported hall he) r' hr' (beq_self_eq_true _)
  rwa [about_append, hnodue, List.append_nil] at hone

end Failure

/-! ## Failures -/

/-- A loop that fails while its task is registered takes out its own registration and tears the
task down, and one report at most is made of the task, the one that the registration asks for. If
the task has been unregistered or destroyed before, the failure changes nothing and is not
reported. Either way, the task is not run again. -/
theorem failure_of_run {l : LoopId} {now : Nat} {ending : Ending Unit} {error : Fault}
    (hrun : (siteSystem κ ξ υ).Run h w) (hn : TaskSet.NoReturn (setPart h))
    (heq : h = pre ++ ⟨w₀, .set (.ran l now ending)⟩ :: post)
    (hfail : ending.error? = some error) :
    ∃ x, w₀.set.loop? l = some x ∧
      (∀ a, w₀.set.registry.lookup? x.task.id = some a →
        TaskSet.Fails ⟨w₀.set, .ran l now ending⟩ x a error ∧
          IsReported h pre post w x.task.id (w₀.reportFor? x a error)) ∧
      (w₀.set.registry.lookup? x.task.id = none →
        TaskSet.IsHarmless ⟨w₀.set, .ran l now ending⟩ ∧ about x.task.id (reports post) = []) ∧
      ∀ o ∈ setPart post, ∀ task, ((setSystem κ ξ).shows o).2 = .loop (.run task) →
        task.id ≠ x.task.id := by
  subst heq
  have hset := set_of_run hrun
  have hsplit : setPart (pre ++ ⟨w₀, .set (.ran l now ending)⟩ :: post) =
      setPart pre ++ ⟨w₀.set, .ran l now ending⟩ :: setPart post := by
    simp [setPart, setEvent?]
  rw [hsplit] at hset hn
  have hall : TaskSet.allows (setPart pre) w₀.set (.ran l now ending) = true :=
    (hset.split rfl).2.1
  obtain ⟨x, hx⟩ := TaskSet.exists_loop? (TaskSet.allows_ran.1 hall)
  have ho : (⟨w₀.set, .ran l now ending⟩ : SetOccurrence κ ξ) ∈
      setPart pre ++ ⟨w₀.set, .ran l now ending⟩ :: setPart post :=
    List.mem_append_right _ List.mem_cons_self
  have habsent := hn.absent_after hset rfl hfail hx
  have hpost : (setSystem κ ξ).Run ((setPart pre ++ [⟨w₀.set, .ran l now ending⟩]) ++ setPart post)
      w.set := by simpa using hset
  have hlater := about_of_absent hpost habsent
  refine ⟨x, hx, fun a ha => ?_, fun hnone => ?_, fun o ho' task hturn hid => ?_⟩
  · have hfails := hn.fails hset ho rfl hfail hx ha
    have hearlier := about_of_registered hn hset (Registry.has_of_lookup? ha)
    have hreport :=
      report?_of_handing (TaskSet.loop?_eq_some hx).2 (SetAnswer.loop.inj hfails.answer)
    exact ⟨hfails, isReported_of_reports hrun hearlier
      (hreport ▸ about_reportFor? w₀ x a error) hlater⟩
  · exact ⟨TaskSet.harmless_of_absent hset ho rfl hfail hx hnone, hlater⟩
  · have hhas := hn.registered_of_turn hset (List.mem_append_right _ (List.mem_cons_of_mem _ ho'))
      hturn
    rw [hid, habsent o ho'] at hhas
    contradiction

/-- Does a registered task panic at the site, so that pool 1 starts its callback in the end? -/
def panics (h : List (SiteOccurrence Unit Unit Nat)) (w₀ : Site Unit Unit Nat) :
    SiteEvent Unit Unit Nat → Bool
  | .set (.ran l _ (.panic p)) => (w₀.set.loop? l).any fun x =>
    (w₀.set.registry.lookup? x.task.id).any fun a =>
      (w₀.reportFor? x a p.toFault).any fun r => r.pool == 1 && decide (started 1 h = [r])
  | _ => false

/-- A task panics when the only worker of its own pool is busy. The set is destroyed while the
submission waits. Then the worker comes free, and the callback is started. -/
theorem failure_of_run_parked : ∃ (h pre post : List (SiteOccurrence Unit Unit Nat))
    (w w₀ : Site Unit Unit Nat) (l : LoopId) (now : Nat) (p : Payload) (x : Loop)
    (a : Registration Unit Unit) (r : Report Unit), (siteSystem Unit Unit Nat).Run h w ∧
      TaskSet.NoReturn (setPart h) ∧ h = pre ++ ⟨w₀, .set (.ran l now (.panic p))⟩ :: post ∧
      w₀.set.loop? l = some x ∧ w₀.set.registry.lookup? x.task.id = some a ∧
      w₀.reportFor? x a p.toFault = some r ∧ r.pool = 1 ∧ started 1 h = [r] ∧
      TaskSet.Fails ⟨w₀.set, .ran l now (.panic p)⟩ x a p.toFault ∧
      IsReported h pre post w x.task.id (some r) := by
  have hpool : (poolSystem (Work Unit Nat)).starts (Pool.create (some 1) {} 0).collect.2 :=
    ⟨1, {}, 0, _, rfl, rfl⟩
  have hstart : (siteSystem Unit Unit Nat).starts
      { set := { name := "s" }, pools := fun _ => (Pool.create (some 1) {} 0).collect.2,
        defaultPool := 0 } := ⟨starts_new "s" none, fun _ => hpool, rfl⟩
  obtain ⟨h, w, hrun, hcheck⟩ := System.exists_run_of_replay hstart
    [.set (.begin 0 (.register ⟨7, "a"⟩ [] { onError := some (), pool := some 1 } none ()) false),
      .set (.begin 1 .init false), .set (.initialized 1 (.ok ()) false), .set (.pollLoop 0 0),
      .pool 1 (.submit 0 (.other 5)), .pool 1 (.pollWorker 0), .set (.pollLoop 0 1),
      .set (.ran 0 1 (.panic (.text "boom"))), .handOver 0 1, .set (.begin 2 .destroy false),
      .pool 1 (.complete 0 2), .pool 1 (.resume 1), .pool 1 (.pollWorker 0),
      .set (.reported 0 "p" (.ok ()))]
    (fun h _ => decide (TaskSet.NoReturn (setPart h)) &&
      passesAt 7 (fun _ o _ => panics h o.before o.event) h) (by decide +kernel)
  obtain ⟨hn, hcheck⟩ := Bool.and_eq_true_iff.1 hcheck
  obtain ⟨pre, ⟨w₀, e⟩, post, heq, hcheck⟩ := exists_of_passesAt hcheck
  unfold panics at hcheck
  split at hcheck
  · rename_i l now p he
    obtain rfl : e = .set (.ran l now (.panic p)) := he
    obtain ⟨x, hx, hcheck⟩ := (Option.any_eq_true _ _).1 hcheck
    obtain ⟨a, ha, hcheck⟩ := (Option.any_eq_true _ _).1 hcheck
    obtain ⟨r, hr, hcheck⟩ := (Option.any_eq_true _ _).1 hcheck
    obtain ⟨hpool, hstarted⟩ := Bool.and_eq_true_iff.1 hcheck
    have hn := of_decide_eq_true hn
    obtain ⟨x', hx', hfails, -⟩ := failure_of_run hrun hn heq rfl
    obtain rfl := Option.some.inj (hx'.symm.trans hx)
    obtain ⟨hfails, hreported⟩ := hfails a ha
    exact ⟨h, pre, post, w, w₀, l, now, p, x', a, r, hrun, hn, heq, hx, ha, hr,
      eq_of_beq hpool, of_decide_eq_true hstarted, hfails, hr ▸ hreported⟩
  · contradiction

end Site

end Overseer
