import Mathlib.Data.Fintype.EquivFin
import Overseer.Proofs.Pool.Gauge
import Overseer.Proofs.Pool.Vacated
import Overseer.Proofs.Process.Stages
import Overseer.Proofs.Supervision.Deadlock

/-!
# The end of a process

A process ends well only after its root task has started and somebody has asked it to stop, and with
an error only after the `init` of the root task has failed. Whatever else happened at the same time,
a failure of the root task with its callback on the way to a pool, or any number of signals, the
root task has been torn down once by then, its loop has come to its end, and the pool of the process
is closed (`EndsWell`). The root task is not torn down again, and no run of it begins any more.

The other half says that nothing keeps a process from its end but what `Awaits` lists. When the set
can do nothing and the process cannot go on, it waits for the `init` of the root task, for somebody
who asks it to stop, or for a run of the root task that is still under way.
-/

namespace Overseer

variable {κ ξ υ : Type}

/-- A pool that nobody drops is not dropped. -/
theorem Site.dropped_perform {v : Site κ ξ υ} {x : SiteEvent κ ξ υ} {p : PoolId}
    (hx : x ≠ .pool p .drop) : ((v.perform x).pools p).dropped = (v.pools p).dropped := by
  rw [Site.pools_perform]
  cases hpool : v.poolEvent? x with
  | none => rfl
  | some y =>
    obtain ⟨q, e⟩ := y
    show (Function.update v.pools q _ p).dropped = _
    by_cases hq : q = p
    · subst hq
      rw [Function.update_self]
      refine Pool.dropped_perform _ ?_
      rintro rfl
      cases x with
      | set e => contradiction
      | pool q' e =>
        obtain ⟨rfl, rfl⟩ := Prod.mk.inj (Option.some.inj hpool)
        exact hx rfl
      | handOver l c =>
        obtain ⟨r, -, hr⟩ := Option.map_eq_some_iff.1 hpool
        exact nomatch (Prod.mk.inj hr).2
    · rw [Function.update_of_ne (Ne.symm hq)]

namespace Host

open TaskSet

variable {b : Boundary κ ξ} {w : Host κ ξ υ} {h pre post : List (HostOccurrence κ ξ υ)}
  {o : HostOccurrence κ ξ υ} {e : HostEvent κ ξ υ} {e' : SetEvent κ ξ} {c : CallId}
  {result : Except Fault Unit} {p : PoolId}

/-- The process ends in the occurrence. -/
def Ends (b : Boundary κ ξ) (o : HostOccurrence κ ξ υ) (result : Except Fault Unit) : Prop :=
  o.before.stage.isEnded = false ∧ ((hostSystem b υ).after o).stage = .ended result

/-- The process has ended as it should. It ends in the occurrence `o`, after `pre` and before
`post`. -/
structure EndsWell (b : Boundary κ ξ) (pre : List (HostOccurrence κ ξ υ))
    (o : HostOccurrence κ ξ υ) (post : List (HostOccurrence κ ξ υ)) (result : Except Fault Unit) :
    Prop where
  /-- The `init` of the root task has ended once, and the result of the process is its result. -/
  settled : ∃ outcome, initOutcomes (setHistory b pre) = [(b.root, outcome)] ∧
    result = outcome.mapError fun f => (SupervisionError.initFailed b.root.name f).toFault
  succeeds : result = .ok () ↔ (b.root, .ok ()) ∈ initOutcomes (setHistory b pre)
  /-- It has been asked to stop, or its root task has failed to start. -/
  asked : (∃ o' ∈ pre, o'.before.isRequest b o'.event = true) ∨
    ∃ f, (b.root, .error f) ∈ initOutcomes (setHistory b pre)
  torn : (setHistory b (pre ++ [o])).flatMap tearsDown = [b.root]
  spared : (setHistory b post).flatMap tearsDown = []
  quiet : ((hostSystem b υ).after o).site.set.isQuiet = true
  /-- No run is in progress from then on, and none begins. -/
  rests : ∀ x ∈ setHistory b post, x.before.isQuiet = true ∧
    ∀ task, ((setSystem κ ξ).shows x).2 ≠ .loop (.run task)
  closed : ∀ p ∈ o.before.pool? b, (((hostSystem b υ).after o).site.pools p).closed = true

/-- What a process waits for that does not go on. -/
inductive Awaits (b : Boundary κ ξ) (w : Host κ ξ υ) : Prop
  | launch : w.stage = .idle → Awaits b w
  | init {c : CallId} {entry : Entry} : w.stage = .busy .initializing (.call c) →
      w.site.set.calls = [⟨c, .preparing entry []⟩] → entry.task = b.root → Awaits b w
  | request : w.stage = .busy .serving .shutdown → w.shutdown = false → Awaits b w
  /-- A run of the root task, or its error, which a loop hands over. -/
  | loop {failure : Option SupervisionError} {c : CallId} {y : Loop} :
      w.stage = .busy (.stopping failure) (.call c) → y ∈ w.site.set.loops → y.task = b.root →
      y.phase = .running ∨ y.phase = .reporting → Awaits b w
  | nothing {result : Except Fault Unit} : w.stage = .ended result → Awaits b w

/-! ## Requests to stop -/

/-- The shutdown token is cancelled once somebody has asked the process to stop. -/
theorem shutdown_of_run (hrun : (hostSystem b υ).Run h w) :
    w.shutdown = true ↔ ∃ o ∈ h, o.before.isRequest b o.event = true := by
  induction hrun with
  | start hs =>
    rw [hs.2.2]
    simp
  | @next h w e hrun hall ih =>
    show (w.shutdown || w.isRequest b e) = true ↔ _
    rw [Bool.or_eq_true, ih]
    simp [or_and_right, exists_or]

/-! ## The root task -/

/-- A task is torn down when its stay ends, and never else. -/
theorem torn_of_run (hb : b.process.startFault? = none) (hrun : (hostSystem b υ).Run h w) :
    (setHistory b h).flatMap tearsDown = (departures (setHistory b h)).map Prod.snd := by
  rw [departures, List.map_flatMap]
  refine List.flatMap_congr fun x hx => ?_
  obtain ⟨o, ho, e, -, hsame⟩ := mem_setHistory hx
  obtain ⟨pre, hpre, -⟩ := hrun.of_mem ho
  have hlate : x.before.lateRefusal? x.event = none := by
    rw [hsame]
    exact lateRefusal?_eq_none (fun y hy => (hosts_of_run hb hpre).fits.late?_eq_none
      (prompt_of_run (set_of_run hpre)).pending hy) _
  rw [tearsDown_eq (set_of_run hrun) hx, hlate, Option.toList_none, List.append_nil]

/-- The set of a process that has ended is terminated, and every loop has ended. -/
theorem quiet_of_ended (hb : b.process.startFault? = none) (hrun : (hostSystem b υ).Run h w)
    (hended : w.stage.isEnded = true) :
    w.site.set.lifecycle = .terminated ∧ w.site.set.isQuiet = true := by
  have hfits := (hosts_of_run hb hrun).fits
  generalize w.stage = stage at hfits hended
  cases hfits with
  | ended hl _ hq _ => exact ⟨hl, hq⟩
  | _ => contradiction

/-- The root task of a process that has ended has been torn down once. -/
theorem torn_of_ended (hb : b.process.startFault? = none) (hrun : (hostSystem b υ).Run h w)
    (hended : w.stage.isEnded = true) : (setHistory b h).flatMap tearsDown = [b.root] := by
  have hstays := (hosts_of_run hb hrun).stays
  have hempty := (sound_of_run (set_of_run hrun)).empty (quiet_of_ended hb hrun hended).1
  have hroot : w.stage.registered b.root = [b.root] := by
    generalize w.stage = stage at hended
    cases stage with
    | ended result => rfl
    | _ => contradiction
  rw [torn_of_run hb hrun, ← hroot, ← hstays]
  simp [stays, hempty]

/-! ## The end -/

/-- A process that has ended does nothing. -/
theorem stage_of_ended (hall : w.allows b h e = true) (hended : w.stage = .ended result) :
    (w.perform b e).stage = .ended result := by
  have hpromise := (Bool.and_eq_true_iff.1 hall).2
  cases e with
  | launch c => simp [hended, HostStage.isIdle] at hpromise
  | proceed c => simp [hended, demand?] at hpromise
  | site e =>
    show w.nextStage b (.site e) = _
    unfold nextStage
    cases e <;> simp [hended, HostStage.hear]
  | _ => exact hended

theorem open_of_perform (hall : w.allows b h e = true)
    (hopen : (w.perform b e).stage.isEnded = false) : w.stage.isEnded = false := by
  generalize hst : w.stage = stage
  cases stage with
  | ended result =>
    rw [stage_of_ended hall hst] at hopen
    contradiction
  | _ => rfl

theorem ended_since (hrun : (hostSystem b υ).Run h w) (heq : h = pre ++ o :: post)
    (hends : Ends b o result) : w.stage = .ended result ∧
      ∀ o' ∈ post, o'.before.stage = .ended result := by
  refine hrun.since (P := fun post w => w.stage = .ended result ∧
    ∀ o' ∈ post, o'.before.stage = .ended result) ⟨hends.2, by simp⟩ ?_ heq
  rintro post w e - hall ⟨hended, hbefore⟩
  refine ⟨stage_of_ended hall hended, fun o' ho' => ?_⟩
  rcases List.mem_append.1 ho' with ho' | ho'
  · exact hbefore o' ho'
  · rw [List.mem_singleton.1 ho']
    exact hended

/-- A process ends when it goes on after the set has been destroyed. -/
theorem exists_of_ends (hb : b.process.startFault? = none)
    (hrun : (hostSystem b υ).Run h w) (hall : w.allows b h e = true)
    (hends : Ends b ⟨w, e⟩ result) : ∃ c failure, e = .proceed c ∧
      w.stage = .busy (.stopping failure) (.turn (.ok ())) ∧ result = resultOf failure := by
  obtain ⟨hopen, hended⟩ := hends
  have hpromise := (Bool.and_eq_true_iff.1 hall).2
  have hended : (w.perform b e).stage = .ended result := hended
  have hsame : (w.perform b e).stage.isEnded ≠ w.stage.isEnded := by
    rw [hended, hopen]
    simp [HostStage.isEnded]
  cases e with
  | launch c =>
    have hst : w.stage = .idle := by
      generalize w.stage = stage at hpromise
      cases stage with
      | idle => rfl
      | _ => contradiction
    have hd : w.demand? b (.launch c) = some (some .registering, .register) := by
      simp only [demand?, hst, hb]
    rw [(perform_of_demand hb (.inl rfl) hd rfl).2.1] at hended
    contradiction
  | site e =>
    refine absurd ?_ hsame
    cases e with
    | set e => exact HostStage.isEnded_hear
    | _ => rfl
  | proceed c =>
    have hfits := (hosts_of_run hb hrun).fits
    refine ⟨c, ?_⟩
    have hstage : (w.perform b (.proceed c)).stage = w.nextStage b (.proceed c) := rfl
    rw [hstage] at hended
    generalize hst : w.stage = stage at hfits
    cases hfits with
    | @stopped failure _ _ _ _ =>
      simp only [nextStage, demand?_of_stopped c hst, Option.elim_some] at hended
      exact ⟨failure, rfl, rfl, (HostStage.ended.inj hended).symm⟩
    | idle _ _ _ => simp [demand?, hst] at hpromise
    | initializing _ _ _ _ => simp [demand?, hst] at hpromise
    | stopping _ _ => simp [demand?, hst] at hpromise
    | ended _ _ _ _ => simp [demand?, hst] at hpromise
    | registered _ _ _ _ =>
      simp [nextStage, demand?, hst, Process.next, stageOf, Boundary.request?] at hended
    | initialized _ _ _ =>
      simp [nextStage, demand?, hst, Process.next, stageOf, Boundary.request?] at hended
    | failed _ _ _ =>
      simp [nextStage, demand?, hst, Process.next, Process.next.failed, stageOf,
        Boundary.request?] at hended
    | serving _ _ _ =>
      have hasked : w.shutdown = true := by
        by_contra hno
        simp [demand?, hst, hno] at hpromise
      simp [nextStage, demand?, hst, hasked, Process.next, stageOf, Boundary.request?] at hended
  | _ => exact absurd rfl hsame

/-- A process releases its pool when it stops. -/
theorem closed_of_stop {phase : Option ProcessPhase}
    (hd : w.demand? b (.proceed c) = some (phase, .stop result)) (hp : w.pool? b = some p) :
    ((w.perform b (.proceed c)).site.pools p).closed = true := by
  have hevent : w.siteEvent? b (.proceed c) = some (.pool p .release) := by
    simp only [siteEvent?, hd, Option.bind_some, demandEvent?, hp, Option.map_some]
  show (((w.siteEvent? b (.proceed c)).elim w.site w.site.perform).pools p).closed = true
  rw [hevent, Option.elim_some, Site.pools_perform]
  show (Function.update w.site.pools p _ p).closed = true
  rw [Function.update_self]
  have hreleased : ((w.site.pools p).perform .release).1.closed = true :=
    Pool.closed_of_lobby (Pool.lobby_release _) rfl
  exact Pool.closed_of_lobby (Pool.lobby_collect _) hreleased

/-- Every process that ends does so as it should. -/
theorem endsWell_of_run (hb : b.process.startFault? = none) (hrun : (hostSystem b υ).Run h w)
    (heq : h = pre ++ o :: post) (hends : Ends b o result) : EndsWell b pre o post result := by
  obtain ⟨hpre, hall, hafter⟩ := hrun.split heq
  obtain ⟨v, e⟩ := o
  obtain ⟨c, failure, rfl, hst, rfl⟩ := exists_of_ends hb hpre hall hends
  have hfits := (hosts_of_run hb hpre).fits
  rw [show v.stage = .busy (.stopping failure) (.turn (.ok ())) from hst] at hfits
  have hsettles : Settles b.root v.shutdown failure (initOutcomes (setHistory b pre)) := by
    cases hfits with
    | stopped _ _ _ hs => exact hs
  obtain ⟨outcome, hout, hresult, hwhy⟩ := hsettles.outcome
  have hended : ((hostSystem b υ).after ⟨v, .proceed c⟩).stage.isEnded = true := by
    rw [hends.2]
    rfl
  obtain ⟨hlast, hbefore⟩ := ended_since hrun heq hends
  have htorn := torn_of_ended hb hafter hended
  refine ⟨⟨outcome, hout, hresult⟩, ?_, ?_, htorn, ?_, (quiet_of_ended hb hafter hended).2, ?_, ?_⟩
  · rw [hresult, hout, List.mem_singleton, Prod.mk.injEq]
    cases outcome <;> simp [Except.mapError]
  · refine hwhy.imp (shutdown_of_run hpre).1 ?_
    rintro ⟨f, rfl⟩
    exact ⟨f, hout ▸ List.mem_cons_self⟩
  · have hall := torn_of_ended hb hrun (hlast ▸ rfl)
    have hsplit : setHistory b h =
        setHistory b (pre ++ [⟨v, .proceed c⟩]) ++ setHistory b post := by
      rw [← setHistory_append, heq, List.append_assoc]
      rfl
    rw [hsplit, List.flatMap_append, htorn] at hall
    exact (List.cons.inj hall).2
  · intro x hx
    obtain ⟨o', ho', e', he', rfl⟩ := mem_setHistory hx
    obtain ⟨mid, rest, rfl⟩ := List.append_of_mem ho'
    have heq' : h = (pre ++ ⟨v, .proceed c⟩ :: mid) ++ o' :: rest := by simp [heq]
    obtain ⟨hmid, hall', -⟩ := hrun.split heq'
    obtain ⟨hl, hq⟩ := quiet_of_ended hb hmid (hbefore o' ho' ▸ rfl)
    exact ⟨hq, (quiet_of_perform (sound_of_run (set_of_run hmid)) hl hq (allows_set hall' he')).2⟩
  · exact fun p hp => closed_of_stop (demand?_of_stopped c hst) hp

/-! ## The way there -/

/-- Nobody else lets go of the set of a process, or of a pool that it may come to release. -/
structure Intact (b : Boundary κ ξ) (w : Host κ ξ υ) : Prop where
  set : w.stage.isEnded = false → w.site.set.dropped = false
  pool : w.stage.isEnded = false → ∀ p, b.process.pool = some p → (w.site.pools p).dropped = false
  defaultPool : (w.site.pools w.site.defaultPool).dropped = false

/-- What happens at the site is up to others, unless somebody asks the process to stop, or the
process makes a call, or releases its pool. -/
theorem permits_or_own {x : SiteEvent κ ξ υ} (hall : w.allows b h e = true)
    (hx : w.siteEvent? b e = some x) :
    w.permits b x = true ∨ x = .set .cancelRoot ∨
      (∃ c request cancelled, x = .set (.begin c request cancelled)) ∨
        ∃ p, x = .pool p .release := by
  have hdemand : ∀ {c : CallId} {d : ProcessDemand}, w.demandEvent? b c d = some x →
      (∃ c request cancelled, x = .set (.begin c request cancelled)) ∨
        ∃ p, x = .pool p .release := by
    intro c d hd
    unfold demandEvent? at hd
    split at hd
    · obtain ⟨p, -, rfl⟩ := Option.map_eq_some_iff.1 hd
      exact .inr ⟨p, rfl⟩
    · obtain ⟨request, -, rfl⟩ := Option.map_eq_some_iff.1 hd
      exact .inl ⟨c, request, w.shutdown, rfl⟩
  cases e with
  | launch c =>
    obtain ⟨d, -, hd⟩ := Option.bind_eq_some_iff.1 hx
    exact .inr (.inr (hdemand hd))
  | proceed c =>
    obtain ⟨d, -, hd⟩ := Option.bind_eq_some_iff.1 hx
    exact .inr (.inr (hdemand hd))
  | signal number => exact .inr (.inl (siteEvent?_of_request (.inl ⟨number, rfl⟩) hx))
  | cancel => exact .inr (.inl (siteEvent?_of_request (.inr (.inl rfl)) hx))
  | getDefault => exact .inr (.inl (siteEvent?_of_request (.inr (.inr rfl)) hx))
  | site e =>
    obtain rfl := Option.some.inj hx
    exact .inl (Bool.and_eq_true_iff.1 hall).2

theorem permits_of_drop (hall : w.allows b h e = true) {x : SiteEvent κ ξ υ}
    (hx : w.siteEvent? b e = some x) (hdrop : x = .set .drop ∨ ∃ p, x = .pool p .drop) :
    w.permits b x = true := by
  rcases permits_or_own hall hx with hpermits | rfl | ⟨c, request, cancelled, rfl⟩ | ⟨p, rfl⟩
  · exact hpermits
  all_goals simp at hdrop

/-- The set of a process is let go of only when the process has ended. -/
theorem isEnded_of_drop (hall : w.allows b h e = true) (he : w.setEvent? b e = some .drop) :
    w.stage.isEnded = true := by
  obtain ⟨x, hx, hx'⟩ := Option.bind_eq_some_iff.1 he
  cases x with
  | set e =>
    obtain rfl := Option.some.inj hx'
    exact permits_of_drop hall hx (.inl rfl)
  | _ => contradiction

theorem dropped_perform (hp : ∀ x, w.siteEvent? b e = some x → x ≠ .pool p .drop) :
    ((w.perform b e).site.pools p).dropped = (w.site.pools p).dropped := by
  show (((w.siteEvent? b e).elim w.site w.site.perform).pools p).dropped = _
  cases he : w.siteEvent? b e with
  | none => rfl
  | some x => exact Site.dropped_perform (hp x he)

theorem defaultPool_perform (b : Boundary κ ξ) (w : Host κ ξ υ) (e : HostEvent κ ξ υ) :
    (w.perform b e).site.defaultPool = w.site.defaultPool := by
  show ((w.siteEvent? b e).elim w.site w.site.perform).defaultPool = _
  cases w.siteEvent? b e with
  | none => rfl
  | some x => exact Site.defaultPool_perform w.site x

theorem intact_of_run (hrun : (hostSystem b υ).Run h w) : Intact b w := by
  induction hrun with
  | @start w hs =>
    obtain ⟨⟨-, hpools, -⟩, hset, -⟩ := hs
    exact ⟨fun _ => by rw [hset], fun _ p _ => Pool.dropped_of_start (hpools p),
      Pool.dropped_of_start (hpools _)⟩
  | @next h w e hrun hall ih =>
    show Intact b (w.perform b e)
    refine ⟨fun hended => ?_, fun hended p hp => ?_, ?_⟩
    · have hopen := open_of_perform hall hended
      rw [set_perform]
      cases he : w.setEvent? b e with
      | none => exact ih.set hopen
      | some e' =>
        refine (dropped_of_perform (sound_of_run (set_of_run hrun)) (allows_set hall he) ?_).trans
          (ih.set hopen)
        rintro rfl
        exact absurd ((isEnded_of_drop hall he).symm.trans hopen) (by decide)
    · have hopen := open_of_perform hall hended
      rw [dropped_perform ?_]
      · exact ih.pool hopen p hp
      · rintro x hx rfl
        have hpermits := permits_of_drop hall hx (.inr ⟨p, rfl⟩)
        simp [permits, hopen, hp] at hpermits
    · rw [defaultPool_perform, dropped_perform ?_]
      · exact ih.defaultPool
      · rintro x hx rfl
        have hpermits := permits_of_drop hall hx (.inr ⟨_, rfl⟩)
        simp [permits] at hpermits

/-- Nothing keeps a process from what it demands next. -/
theorem exists_proceed (hrun : (hostSystem b υ).Run h w) (hopen : w.stage.isEnded = false)
    (hd : ∀ c, (w.demand? b (.proceed c)).isSome = true) :
    ∃ c, w.allows b h (.proceed c) = true := by
  have hintact := intact_of_run hrun
  obtain ⟨c, hnew⟩ := Infinite.exists_notMem_finset (begun (setHistory b h)).toFinset
  rw [List.mem_toFinset] at hnew
  refine ⟨c, Bool.and_eq_true_iff.2 ⟨?_, hd c⟩⟩
  obtain ⟨⟨phase, d⟩, hd⟩ := Option.isSome_iff_exists.1 (hd c)
  have hevent : w.siteEvent? b (.proceed c) = w.demandEvent? b c d := by
    simp only [siteEvent?, hd, Option.bind_some]
  rw [hevent]
  unfold demandEvent?
  split
  · cases hp : w.pool? b with
    | none => rfl
    | some p =>
      have hthere : (w.site.pools p).dropped = false := by
        unfold pool? at hp
        split at hp
        · rename_i q hq
          obtain rfl := Option.some.inj hp
          exact hintact.pool hopen _ hq
        · split at hp
          · obtain rfl := Option.some.inj hp
            exact hintact.defaultPool
          · contradiction
      simp [Site.allows, Pool.allows, hthere, PoolEvent.unit?]
  · cases b.request? d with
    | none => rfl
    | some request =>
      have hcall : TaskSet.allows (setHistory b h) w.site.set
          (.begin c request w.shutdown) = true := allows_begin.2 ⟨hintact.set hopen, hnew⟩
      exact Bool.and_eq_true_iff.2 ⟨hcall, rfl⟩

/-- A loop that is left polls for the root task. -/
theorem task_of_loop (hb : b.process.startFault? = none) (hrun : (hostSystem b υ).Run h w)
    {y : Loop} (hy : y ∈ w.site.set.loops) : y.task = b.root := by
  have hstay : y.stay ∈ departures (setHistory b h) ++ w.site.set.stays := by
    rw [List.mem_append]
    exact (housed_of_run (set_of_run hrun) y hy).symm.imp_left And.left
  have hmem : y.task ∈ w.stage.registered b.root := by
    rw [← (hosts_of_run hb hrun).stays]
    exact List.mem_map_of_mem (f := Prod.snd) hstay
  generalize w.stage = stage at hmem
  cases stage with
  | idle => simp [HostStage.registered] at hmem
  | _ => exact List.mem_singleton.1 hmem

/-- A process that does not go on waits for something. -/
theorem awaits_of_still (hb : b.process.startFault? = none) (hrun : (hostSystem b υ).Run h w)
    {now : Nat} (hstill : IsStill w.site.set now)
    (hstuck : ∀ c, w.allows b h (.proceed c) = false) : Awaits b w := by
  have hset := set_of_run hrun
  have hfits := (hosts_of_run hb hrun).fits
  have hgo : w.stage.isEnded = false → ¬∀ c, (w.demand? b (.proceed c)).isSome = true := by
    intro hopen hd
    obtain ⟨c, hc⟩ := exists_proceed hrun hopen hd
    exact Bool.false_ne_true ((hstuck c).symm.trans hc)
  generalize hst : w.stage = stage at hfits
  cases hfits with
  | idle _ _ _ => exact .launch hst
  | ended _ _ _ _ => exact .nothing hst
  | initializing _ hc htask _ => exact .init hst hc htask
  | serving _ _ _ =>
    refine .request hst (Bool.eq_false_iff.2 fun hasked => ?_)
    exact hgo (by simp [hst, HostStage.isEnded]) fun c => by simp [demand?, hst, hasked]
  | @stopping c failure hc _ =>
    have ho := orderly_of_run hset
    have hdraining : ⟨c, .draining⟩ ∈ w.site.set.calls := hc ▸ List.mem_cons_self
    obtain ⟨-, -, -, y, hy, hleft⟩ := hstill.left ho ⟨_, hdraining, rfl⟩
    have hphase := phase_of_still hstill ho (sound_of_run hset).loopIds
      (stopped_of_run hset (ho.drains c hdraining)) y hy
    exact .loop hst hy (task_of_loop hb hrun hy) (hphase.resolve_left hleft)
  | _ =>
    exact absurd (fun c => by simp [demand?, hst]) (hgo (by simp [hst, HostStage.isEnded]))

/-- Whatever the root task does, and whoever asks when and how often, a process ends as it should
if it ends (`EndsWell`), and only the root task, or that nobody has asked, keeps it from its end
(`Awaits`). -/
theorem end_of_run (hb : b.process.startFault? = none) (hrun : (hostSystem b υ).Run h w) :
    (∀ pre o post result, h = pre ++ o :: post → Ends b o result →
      EndsWell b pre o post result) ∧
    ∀ now, IsStill w.site.set now → (∀ c, w.allows b h (.proceed c) = false) → Awaits b w :=
  ⟨fun _ _ _ _ heq hends => endsWell_of_run hb hrun heq hends,
    fun _ hstill hstuck => awaits_of_still hb hrun hstill hstuck⟩

/-- A process with a pool of its own, and a root task that has a callback for its errors. -/
def reporting : Boundary Unit Unit where
  process := { pool := some 1 }
  root := ⟨7, "a"⟩
  args := []
  options := { onError := some () }
  extra := ()

/-- The root task panics. Before its error has been handed over, two signals arrive, the token is
cancelled, and the process destroys the set. -/
def reportingRun : List (HostEvent Unit Unit Nat) :=
  [.launch 0, .proceed 1, .site (.set (.initialized 1 (.ok ()) false)), .proceed 2,
    .site (.set (.pollLoop 0 0)), .site (.set (.pollLoop 0 1)),
    .site (.set (.ran 0 1 (.panic (.text "boom")))), .signal 15, .signal 2, .cancel, .proceed 3,
    .site (.handOver 0 0), .site (.set (.reported 0 "p" (.ok ()))), .site (.set (.poll 3 true)),
    .proceed 4, .signal 15, .site (.pool 1 (.pollWorker 0)), .site (.set .drop)]

/-- Does the run come to its end in the occurrence? -/
def endsInOk (b : Boundary κ ξ) (o : HostOccurrence κ ξ υ) : Bool :=
  !o.before.stage.isEnded &&
    match ((hostSystem b υ).after o).stage with
    | .ended (.ok _) => true
    | _ => false

theorem ends_of_endsInOk (ho : endsInOk b o = true) : Ends b o (.ok ()) := by
  obtain ⟨hopen, hended⟩ := Bool.and_eq_true_iff.1 ho
  refine ⟨by simpa using hopen, ?_⟩
  split at hended
  · assumption
  · contradiction

/-- The process of `reportingRun` ends as it should. -/
theorem end_of_run_reporting : ∃ (h pre post : List (HostOccurrence Unit Unit Nat))
    (w : Host Unit Unit Nat) (o : HostOccurrence Unit Unit Nat),
    reporting.process.startFault? = none ∧ (hostSystem reporting Nat).Run h w ∧
      h = pre ++ o :: post ∧ post.length = 3 ∧ Ends reporting o (.ok ()) ∧
      (Site.reports (sitePart reporting pre)).length = 1 ∧
      EndsWell reporting pre o post (.ok ()) ∧
      ∀ now, IsStill w.site.set now → (∀ c, w.allows reporting h (.proceed c) = false) →
        Awaits reporting w := by
  have hpool : (poolSystem (Work Unit Nat)).starts (Pool.create (some 1) {} 0).collect.2 :=
    ⟨1, {}, 0, _, rfl, rfl⟩
  have hstart : (hostSystem reporting Nat).starts { site := {
      set := { name := "process", pool := some 1 },
      pools := fun _ => (Pool.create (some 1) {} 0).collect.2, defaultPool := 0 } } :=
    ⟨⟨starts_new _ _, fun _ => hpool, rfl⟩, rfl, rfl⟩
  obtain ⟨h, w, hrun, hcheck⟩ := System.exists_run_of_replay hstart reportingRun
    (fun h _ => passesAt 14 (fun pre o post => endsInOk reporting o && post.length == 3 &&
      (Site.reports (sitePart reporting pre)).length == 1) h) (by decide +kernel)
  obtain ⟨pre, o, post, heq, hcheck⟩ := exists_of_passesAt hcheck
  simp only [Bool.and_eq_true, beq_iff_eq] at hcheck
  obtain ⟨⟨hok, hlen⟩, hreports⟩ := hcheck
  have hb : reporting.process.startFault? = none := by decide +kernel
  have hends := ends_of_endsInOk hok
  obtain ⟨hend, hawaits⟩ := end_of_run hb hrun
  exact ⟨h, pre, post, w, o, hb, hrun, heq, hlen, hends, hreports, hend pre o post _ heq hends,
    hawaits⟩

end Host

end Overseer
