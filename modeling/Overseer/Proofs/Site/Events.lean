import Mathlib.Logic.Function.Basic
import Overseer.Proofs.Pool.Units
import Overseer.Proofs.Supervision.Events

/-!
# A supervised set and the pools of its site

A set asks for one thing that it does not do itself: that the error of a failed task be submitted
to a pool, with the callback that is to have it. A `Site` is a set with all the pools there are.
Everything that can happen to either can happen at any time, and a loop that has failed submits
its `Report` in an event of its own (`SiteEvent.handOver`), as the `destroy` of its task comes
first and may do anything. Until then the report is due. The outside promises what it promises to
the set and to each pool; that error callbacks are submitted in no other way; and that nothing
more is heard of a loop, and that it is not dropped, before it has submitted what is due.

A history of a site is a history of its set (`set_of_run`) and of each of its pools
(`pool_of_run`). What has been submitted, and what is due, is what was reported (`due_of_run`),
and the pools are offered what was submitted to them (`offers_of_pool`).
-/

namespace Overseer

/-- The error of a task on the way to its callback. -/
structure Report (κ : Type) where
  /-- The loop that failed. -/
  loop : LoopId
  callback : κ
  task : TaskRef
  error : Fault
  /-- The pool that is to run the callback. -/
  pool : PoolId
  deriving DecidableEq

/-- A unit of work: an error callback, or anything else. -/
inductive Work (κ υ : Type) where
  | callback (r : Report κ)
  | other (u : υ)
  deriving DecidableEq

/-- A supervised set, and all the pools there are. -/
structure Site (κ ξ υ : Type) where
  set : TaskSet κ ξ
  pools : PoolId → Pool (Work κ υ)
  /-- The pool for callbacks if neither the registration nor the set has one. -/
  defaultPool : PoolId
  /-- What loops that have failed are about to submit. -/
  due : List (Report κ) := []

/-- Something that happens at a site. -/
inductive SiteEvent (κ ξ υ : Type) where
  | set (e : SetEvent κ ξ)
  | pool (p : PoolId) (e : PoolEvent (Work κ υ))
  /-- A loop that has failed submits its report, in a call of that number. -/
  | handOver (l : LoopId) (c : CallerId)

/-- An event of a site with the state that it found. -/
abbrev SiteOccurrence (κ ξ υ : Type) := Occurrence (Site κ ξ υ) (SiteEvent κ ξ υ)

variable {κ ξ υ : Type}

def Work.report? : Work κ υ → Option (Report κ)
  | .callback r => some r
  | .other _ => none

/-- The unit that an event submits. -/
def PoolEvent.unit? : PoolEvent υ → Option υ
  | .submit _ u => some u
  | _ => none

namespace Site

/-- What the loop is about to submit. -/
def due? (w : Site κ ξ υ) (l : LoopId) : Option (Report κ) := w.due.find? (·.loop == l)

/-- What is to be submitted because of an event. -/
def report? (w : Site κ ξ υ) : SiteEvent κ ξ υ → Option (Report κ)
  | .set (.ran l now ending) =>
    match (w.set.ran l now ending).2 with
    | .report callback task error pool =>
      some ⟨l, callback, task, error, pool.getD w.defaultPool⟩
    | _ => none
  | _ => none

/-- What an event submits. -/
def submission? (w : Site κ ξ υ) : SiteEvent κ ξ υ → Option (Report κ)
  | .handOver l _ => w.due? l
  | _ => none

/-- What an event is to the set. -/
def setEvent? : SiteEvent κ ξ υ → Option (SetEvent κ ξ)
  | .set e => some e
  | _ => none

/-- What an event is to one of the pools. -/
def poolEvent? (w : Site κ ξ υ) : SiteEvent κ ξ υ → Option (PoolId × PoolEvent (Work κ υ))
  | .set _ => none
  | .pool p e => some (p, e)
  | .handOver l c => (w.due? l).map fun r => (r.pool, .submit c (.callback r))

/-- Let an event happen to a pool. -/
def onPool (w : Site κ ξ υ) (p : PoolId) (e : PoolEvent (Work κ υ)) : Site κ ξ υ :=
  { w with pools := Function.update w.pools p ((poolSystem (Work κ υ)).happen (w.pools p) e).1 }

/-- Let an event happen. -/
def perform (w : Site κ ξ υ) (e : SiteEvent κ ξ υ) : Site κ ξ υ :=
  let w' := (w.poolEvent? e).elim w fun x => w.onPool x.1 x.2
  match e with
  | .set e' =>
    { w' with
      set := ((setSystem κ ξ).happen w.set e').1
      due := w.due ++ (w.report? e).toList }
  | .pool _ _ => w'
  | .handOver l _ => { w' with due := w.due.eraseP (·.loop == l) }

/-- Is anything heard of a loop, or is it dropped, that has yet to submit its report? -/
def cutsShort (w : Site κ ξ υ) : SetEvent κ ξ → Bool
  | .reported l _ _ => (w.due? l).isSome
  | .killLoop l => (w.due? l).isSome
  | _ => false

end Site

/-- What happens to the set of a site. -/
def setPart (h : List (SiteOccurrence κ ξ υ)) : List (SetOccurrence κ ξ) :=
  h.filterMap fun o => (Site.setEvent? o.event).map (⟨o.before.set, ·⟩)

/-- What an event is to a pool. -/
def Site.poolPart? (w : Site κ ξ υ) (p : PoolId) (e : SiteEvent κ ξ υ) :
    Option (Occurrence (Pool (Work κ υ)) (PoolEvent (Work κ υ))) :=
  (w.poolEvent? e).bind fun x => if x.1 = p then some ⟨w.pools p, x.2⟩ else none

/-- What happens to a pool of a site. -/
def poolPart (p : PoolId) (h : List (SiteOccurrence κ ξ υ)) :
    List (Occurrence (Pool (Work κ υ)) (PoolEvent (Work κ υ))) :=
  h.filterMap fun o => o.before.poolPart? p o.event

/-- What the outside promises about the next event at a site. -/
def Site.allows (h : List (SiteOccurrence κ ξ υ)) (w : Site κ ξ υ) : SiteEvent κ ξ υ → Bool
  | .set e => TaskSet.allows (setPart h) w.set e && !w.cutsShort e
  | .pool p e => Pool.allows (poolPart p h) (w.pools p) e && (e.unit?.bind Work.report?).isNone
  | .handOver l c => (w.due? l).any fun r =>
    Pool.allows (poolPart r.pool h) (w.pools r.pool) (.submit c (.callback r))

/-- A site at which events happen. What the outside sees of one is what it sees of its parts. -/
def siteSystem (κ ξ υ : Type) : System (Site κ ξ υ) (SiteEvent κ ξ υ) Unit where
  starts w := (setSystem κ ξ).starts w.set ∧ (∀ p, (poolSystem (Work κ υ)).starts (w.pools p)) ∧
    w.due = []
  happen w e := (w.perform e, ())
  allows := Site.allows

theorem PoolEvent.offered_eq (p : Pool υ) (e : PoolEvent υ) :
    (p.traffic e).offered = e.unit?.toList := by
  cases e with
  | submit c u => rfl
  | resume c =>
    simp only [Pool.traffic]
    split
    · exact Traffic.offered_answered _ _
    · rfl
  | pollWorker w =>
    simp only [Pool.traffic]
    split <;> rfl
  | _ => rfl

namespace Site

variable {w : Site κ ξ υ} {h : List (SiteOccurrence κ ξ υ)} {e : SiteEvent κ ξ υ} {p q : PoolId}
  {e' : PoolEvent (Work κ υ)}

/-! ## The parts of a history -/

theorem set_perform (w : Site κ ξ υ) (e : SiteEvent κ ξ υ) : (w.perform e).set =
    (setEvent? e).elim w.set fun e' => ((setSystem κ ξ).happen w.set e').1 := by
  cases e with
  | handOver l c => cases hd : w.due? l <;> simp [perform, poolEvent?, hd, setEvent?, onPool]
  | _ => rfl

theorem pools_perform (w : Site κ ξ υ) (e : SiteEvent κ ξ υ) : (w.perform e).pools =
    (w.poolEvent? e).elim w.pools fun x =>
      Function.update w.pools x.1 ((poolSystem (Work κ υ)).happen (w.pools x.1) x.2).1 := by
  cases e with
  | handOver l c => cases hd : w.due? l <;> simp [perform, poolEvent?, hd, onPool]
  | _ => rfl

theorem defaultPool_perform (w : Site κ ξ υ) (e : SiteEvent κ ξ υ) :
    (w.perform e).defaultPool = w.defaultPool := by
  cases e with
  | handOver l c => cases hd : w.due? l <;> simp [perform, poolEvent?, hd, onPool]
  | _ => rfl

/-- What happens to a pool is what the outside promises. -/
theorem allows_pool (hall : w.allows h e = true) (he : w.poolEvent? e = some (p, e')) :
    Pool.allows (poolPart p h) (w.pools p) e' = true := by
  cases e with
  | set e => contradiction
  | pool q e =>
    obtain ⟨rfl, rfl⟩ := Prod.mk.inj (Option.some.inj he)
    exact (Bool.and_eq_true_iff.1 hall).1
  | handOver l c =>
    obtain ⟨r, hr, hrp⟩ := Option.map_eq_some_iff.1 he
    obtain ⟨rfl, rfl⟩ := Prod.mk.inj hrp
    obtain ⟨r', hr', hall⟩ := (Option.any_eq_true _ _).1 hall
    obtain rfl := Option.some.inj (hr.symm.trans hr')
    exact hall

theorem filterMap_concat {α β : Type} (f : α → Option β) (xs : List α) (x : α) :
    (xs ++ [x]).filterMap f = xs.filterMap f ++ (f x).toList := by
  cases hx : f x <;> simp [hx]

theorem setPart_append (h : List (SiteOccurrence κ ξ υ)) (w : Site κ ξ υ) (e : SiteEvent κ ξ υ) :
    setPart (h ++ [⟨w, e⟩]) = setPart h ++ ((setEvent? e).map (⟨w.set, ·⟩)).toList :=
  filterMap_concat _ h _

theorem poolPart_append (p : PoolId) (h : List (SiteOccurrence κ ξ υ)) (w : Site κ ξ υ)
    (e : SiteEvent κ ξ υ) :
    poolPart p (h ++ [⟨w, e⟩]) = poolPart p h ++ (w.poolPart? p e).toList :=
  filterMap_concat _ h _

/-- A history of a site is one of its set. -/
theorem set_of_run (hrun : (siteSystem κ ξ υ).Run h w) :
    (setSystem κ ξ).Run (setPart h) w.set := by
  induction hrun with
  | start hs => exact .start hs.1
  | @next h w e hrun hall ih =>
    rw [setPart_append]
    show (setSystem κ ξ).Run _ (w.perform e).set
    rw [set_perform]
    cases e with
    | set e => exact ih.next (Bool.and_eq_true_iff.1 hall).1
    | _ => simpa [setEvent?] using ih

/-- A history of a site is one of each of its pools. -/
theorem pool_of_run (p : PoolId) (hrun : (siteSystem κ ξ υ).Run h w) :
    (poolSystem (Work κ υ)).Run (poolPart p h) (w.pools p) := by
  induction hrun with
  | start hs => exact .start (hs.2.1 p)
  | @next h w e hrun hall ih =>
    rw [poolPart_append, poolPart?]
    show (poolSystem (Work κ υ)).Run _ ((w.perform e).pools p)
    rw [pools_perform]
    cases he : w.poolEvent? e with
    | none => simpa using ih
    | some x =>
      obtain ⟨q, e'⟩ := x
      by_cases hq : q = p
      · subst hq
        simpa using ih.next (allows_pool hall he)
      · simpa [hq, Function.update_of_ne (Ne.symm hq)] using ih

/-! ## What is reported, submitted and due -/

/-- What failing loops were to submit. -/
def reports (h : List (SiteOccurrence κ ξ υ)) : List (Report κ) :=
  h.filterMap fun o => o.before.report? o.event

/-- What failing loops have submitted. -/
def submissions (h : List (SiteOccurrence κ ξ υ)) : List (Report κ) :=
  h.filterMap fun o => o.before.submission? o.event

theorem reports_append (h : List (SiteOccurrence κ ξ υ)) (w : Site κ ξ υ) (e : SiteEvent κ ξ υ) :
    reports (h ++ [⟨w, e⟩]) = reports h ++ (w.report? e).toList := filterMap_concat _ h _

theorem submissions_append (h : List (SiteOccurrence κ ξ υ)) (w : Site κ ξ υ)
    (e : SiteEvent κ ξ υ) : submissions (h ++ [⟨w, e⟩]) =
      submissions h ++ (w.submission? e).toList := filterMap_concat _ h _

theorem perm_find?_eraseP {α : Type} (f : α → Bool) (xs : List α) :
    ((xs.find? f).toList ++ xs.eraseP f).Perm xs := by
  induction xs with
  | nil => exact .refl _
  | cons x xs ih =>
    by_cases hx : f x = true
    · simp [hx]
    · simp only [Bool.not_eq_true] at hx
      simp only [List.find?_cons, hx, List.eraseP_cons, cond_false]
      exact List.perm_middle.trans (ih.cons x)

/-- What is submitted was due, and what is reported becomes due. -/
theorem due_perform (w : Site κ ξ υ) (e : SiteEvent κ ξ υ) :
    ((w.submission? e).toList ++ (w.perform e).due).Perm (w.due ++ (w.report? e).toList) := by
  cases e with
  | set e => exact .refl _
  | pool p e =>
    show (w.due).Perm (w.due ++ [])
    rw [List.append_nil]
  | handOver l c =>
    show ((w.due.find? (·.loop == l)).toList ++ w.due.eraseP (·.loop == l)).Perm (w.due ++ [])
    rw [List.append_nil]
    exact perm_find?_eraseP _ _

/-- Whatever was reported has been submitted, or is due. -/
theorem due_of_run (hrun : (siteSystem κ ξ υ).Run h w) :
    (submissions h ++ w.due).Perm (reports h) := by
  induction hrun with
  | start hs =>
    rw [hs.2.2]
    exact .refl _
  | @next h w e hrun hall ih =>
    rw [submissions_append, reports_append, List.append_assoc]
    refine ((due_perform w e).append_left _).trans ?_
    rw [← List.append_assoc]
    exact ih.append_right _

/-- What an event offers to a pool is what it submits to that pool. -/
theorem offered_poolPart? (hall : w.allows h e = true) (p : PoolId) :
    ((w.poolPart? p e).bind fun o => o.event.unit?.bind Work.report?) =
      (w.submission? e).filter (·.pool == p) := by
  cases e with
  | set e => rfl
  | pool q e =>
    have hnone : (e.unit?.bind Work.report?).isNone = true := (Bool.and_eq_true_iff.1 hall).2
    by_cases hq : q = p <;>
      simp [poolPart?, poolEvent?, submission?, hq, Option.isNone_iff_eq_none.1 hnone]
  | handOver l c =>
    cases hr : w.due? l with
    | none => simp [poolPart?, poolEvent?, submission?, hr]
    | some r =>
      by_cases hp : r.pool = p <;>
        simp [poolPart?, poolEvent?, submission?, hr, hp, PoolEvent.unit?, Work.report?,
          Option.filter]

/-- A pool is offered the reports that are submitted to it, and no others. -/
theorem offers_of_pool (p : PoolId) (hrun : (siteSystem κ ξ υ).Run h w) :
    (offers (poolPart p h)).filterMap Work.report? =
      (submissions h).filter fun r => r.pool == p := by
  induction hrun with
  | start hs => rfl
  | @next h w e hrun hall ih =>
    rw [poolPart_append, submissions_append, List.filter_append, ← Option.toList_filter,
      ← offered_poolPart? hall p, ← ih]
    cases hpart : w.poolPart? p e with
    | none => simp
    | some o =>
      have hoffers :
          offers (poolPart p h ++ [o]) = offers (poolPart p h) ++ o.event.unit?.toList := by
        unfold offers
        rw [Pool.ledger_append, PoolEvent.offered_eq]
      rw [Option.toList_some, hoffers, List.filterMap_append, Option.bind_some]
      cases o.event.unit? with
      | none => rfl
      | some u => exact congrArg _ (filterMap_concat Work.report? [] u)

end Site

end Overseer
