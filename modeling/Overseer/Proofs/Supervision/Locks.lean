import Mathlib.Data.List.Nodup
import Overseer.Proofs.Supervision.Courses

/-!
# Who has the locks of a set

A lock serves the calls that want it if it knows exactly these, each once, and is free only if
nobody waits for it (`Lock.Serves`). Which locks a call wants is read off its phase. The `desk` of a
set is its calls and locks: what loops, tokens and registrations are doing does not matter to it.

A desk is `Orderly` if both locks serve, and a call that waits for the loops does so in a set that
is terminated. A call that goes on keeps what it wants (`Orderly.shift`), comes to want the
lifecycle lock (`Orderly.claim`), lets go of it (`Orderly.release`), or ends (`Orderly.endCall`),
and each of these leaves an orderly desk.
-/

namespace Overseer

/-! ## Locks -/

namespace Lock

/-- Who holds a lock, and who waits for it. -/
def claimants (l : Lock) : List CallId := l.holder.toList ++ l.queue

/-- A lock knows exactly the calls that want it. -/
structure Serves (l : Lock) (wants : CallId → Prop) : Prop where
  nodup : l.claimants.Nodup
  mem : ∀ c, c ∈ l.claimants ↔ wants c
  free : l.holder = none → l.queue = []

variable {l : Lock} {c : CallId} {wants wants' : CallId → Prop}

theorem serves_nobody (h : ∀ c, ¬wants c) : ({} : Lock).Serves wants :=
  ⟨List.nodup_nil, fun c => ⟨fun hc => absurd hc List.not_mem_nil, fun hc => absurd hc (h c)⟩,
    fun _ => rfl⟩

theorem Serves.congr (h : l.Serves wants) (hw : ∀ d, wants' d ↔ wants d) : l.Serves wants' :=
  ⟨h.nodup, fun d => (h.mem d).trans (hw d).symm, h.free⟩

/-- Who comes is the last of the claimants. -/
theorem claimants_acquire (h : l.holder = none → l.queue = []) (c : CallId) :
    (l.acquire c).claimants = l.claimants ++ [c] := by
  unfold acquire claimants
  split
  · rename_i hfree
    simp [hfree, h hfree]
  · simp

theorem Serves.acquire (h : l.Serves wants) (hc : ¬wants c)
    (hw : ∀ d, wants' d ↔ d = c ∨ wants d) : (l.acquire c).Serves wants' := by
  have hclaims := claimants_acquire h.free c
  refine ⟨?_, fun d => ?_, fun hfree => ?_⟩
  · rw [hclaims]
    refine List.nodup_append.2 ⟨h.nodup, List.nodup_singleton _, fun d hd e he => ?_⟩
    obtain rfl := List.mem_singleton.1 he
    rintro rfl
    exact hc ((h.mem d).1 hd)
  · rw [hclaims, List.mem_append, List.mem_singleton, h.mem, hw]
    exact or_comm
  · unfold Lock.acquire at hfree
    split at hfree
    · contradiction
    · rename_i hheld
      simp [hheld] at hfree

/-- Who goes is no claimant any longer, and the others keep their order. -/
theorem claimants_leave (h : l.claimants.Nodup) (c : CallId) :
    (l.leave c).1.claimants = l.claimants.filter (· != c) := by
  unfold leave isHeldBy claimants at *
  cases hholder : l.holder with
  | none => simp
  | some d =>
    rw [hholder] at h
    by_cases hd : d = c
    · subst hd
      obtain ⟨hnew, -⟩ := List.nodup_cons.1 h
      have hkept : l.queue.filter (· != d) = l.queue := by
        refine List.filter_eq_self.2 fun e he => ?_
        have hne : e ≠ d := fun hed => hnew (hed ▸ he)
        simpa using hne
      cases hqueue : l.queue with
      | nil => simp
      | cons e rest => simpa [hqueue] using hkept.symm
    · simp [hd]

theorem Serves.leave (h : l.Serves wants) (hw : ∀ d, wants' d ↔ wants d ∧ d ≠ c) :
    (l.leave c).1.Serves wants' := by
  have hclaims := claimants_leave h.nodup c
  refine ⟨hclaims ▸ h.nodup.filter _, fun d => ?_, fun hfree => ?_⟩
  · rw [hclaims, List.mem_filter, h.mem, hw]
    simp
  · unfold Lock.leave at hfree ⊢
    split
    · rename_i hheld
      rw [if_pos hheld] at hfree
      split
      · assumption
      · rename_i hqueue
        simp [hqueue] at hfree
    · rename_i hheld
      rw [if_neg hheld] at hfree
      simp [h.free hfree]

/-- A lock that somebody wants is held by somebody who wants it. -/
theorem Serves.held (h : l.Serves wants) (hc : wants c) : ∃ d, l.holder = some d ∧ wants d := by
  have hclaims := (h.mem c).2 hc
  cases hholder : l.holder with
  | none => simp [claimants, hholder, h.free hholder] at hclaims
  | some d => exact ⟨d, rfl, (h.mem d).1 (by simp [claimants, hholder])⟩

end Lock

variable {κ ξ : Type}

namespace CallPhase

/-- Does the call wait for the lifecycle lock, or hold it? -/
def wantsLifecycle : CallPhase κ ξ → Bool
  | .initializing _ => false
  | .queued => false
  | .preparing _ _ => false
  | _ => true

/-- Does the call wait for the startup lock, or hold it? -/
def wantsStartup : CallPhase κ ξ → Bool
  | .queued => true
  | .opening => true
  | .checking _ _ => true
  | .preparing _ _ => true
  | .aborting _ _ => true
  | .concluding => true
  | _ => false

@[simp] theorem wantsLifecycle_before (es : List Entry) :
    (before es : CallPhase κ ξ).wantsLifecycle = true := by cases es <;> rfl

@[simp] theorem wantsStartup_before (es : List Entry) :
    (before es : CallPhase κ ξ).wantsStartup = true := by cases es <;> rfl

end CallPhase

namespace TaskSet

variable {s t u : TaskSet κ ξ} {c d : CallId} {p q : CallPhase κ ξ}
  {w : CallPhase κ ξ → Bool}

/-! ## What calls want -/

/-- Is the call in a phase that `w` accepts? -/
def Wants (s : TaskSet κ ξ) (w : CallPhase κ ξ → Bool) (c : CallId) : Prop :=
  ∃ p, ⟨c, p⟩ ∈ s.calls ∧ w p = true

theorem wants_without : (s.without c).Wants w d ↔ s.Wants w d ∧ d ≠ c := by
  constructor
  · rintro ⟨p, hp, hw⟩
    obtain ⟨hp, hne⟩ := List.mem_filter.1 hp
    exact ⟨⟨p, hp, hw⟩, by simpa using hne⟩
  · rintro ⟨⟨p, hp, hw⟩, hne⟩
    exact ⟨p, List.mem_filter.2 ⟨hp, by simpa using hne⟩, hw⟩

theorem wants_addCall :
    (s.addCall c q).Wants w d ↔ (d = c ∧ w q = true) ∨ s.Wants w d := by
  constructor
  · rintro ⟨p, hp, hw⟩
    rcases List.mem_append.1 hp with hp | hp
    · exact .inr ⟨p, hp, hw⟩
    · obtain ⟨rfl, rfl⟩ := Call.mk.inj (List.mem_singleton.1 hp)
      exact .inl ⟨rfl, hw⟩
  · rintro (⟨rfl, hw⟩ | ⟨p, hp, hw⟩)
    · exact ⟨q, List.mem_append_right _ (List.mem_singleton_self _), hw⟩
    · exact ⟨p, List.mem_append_left _ hp, hw⟩

theorem wants_setPhase (hc : ⟨c, p⟩ ∈ s.calls) :
    (s.setPhase c q).Wants w d ↔ (d = c ∧ w q = true) ∨ (d ≠ c ∧ s.Wants w d) := by
  constructor
  · rintro ⟨r, hr, hw⟩
    rcases mem_setPhase hr with heq | ⟨hr, hne⟩
    · obtain ⟨rfl, rfl⟩ := Call.mk.inj heq
      exact .inl ⟨rfl, hw⟩
    · exact .inr ⟨hne, r, hr, hw⟩
  · rintro (⟨rfl, hw⟩ | ⟨hne, r, hr, hw⟩)
    · exact ⟨q, mem_setPhase_self hc, hw⟩
    · exact ⟨r, List.mem_map.2 ⟨⟨d, r⟩, hr, by simp [hne]⟩, hw⟩

/-! ## Desks -/

/-- A set as its calls see it: without what is registered, polled and reported. -/
def desk (s : TaskSet κ ξ) : TaskSet κ ξ :=
  { s with
    isRooted := false, rootCancelled := false, registry := [], loops := [], nextLoop := 0
    notices := [] }

/-- Both locks serve, and loops are waited for only in a terminated set. -/
structure Orderly (s : TaskSet κ ξ) : Prop where
  distinct : (s.calls.map (·.id)).Nodup
  lifecycle : s.lifecycleLock.Serves (s.Wants CallPhase.wantsLifecycle)
  startup : s.startupLock.Serves (s.Wants CallPhase.wantsStartup)
  drains : ∀ c, ⟨c, .draining⟩ ∈ s.calls → s.lifecycle = .terminated
  dropped : s.dropped = true → s.calls = []

theorem orderly_desk : Orderly s.desk ↔ Orderly s :=
  ⟨fun h => ⟨h.distinct, h.lifecycle, h.startup, h.drains, h.dropped⟩,
    fun h => ⟨h.distinct, h.lifecycle, h.startup, h.drains, h.dropped⟩⟩

theorem Orderly.of_desk (h : t.desk = s.desk) (hs : Orderly s) : Orderly t := by
  rw [← orderly_desk, h]
  exact orderly_desk.2 hs

/-- A call is in one phase. -/
theorem Orderly.phase_eq (hs : Orderly s) (hp : ⟨c, p⟩ ∈ s.calls) (hq : ⟨c, q⟩ ∈ s.calls) :
    p = q :=
  (Call.mk.inj (List.inj_on_of_nodup_map hs.distinct hp hq rfl)).2

theorem Orderly.wants_iff (hs : Orderly s) (hc : ⟨c, p⟩ ∈ s.calls) : s.Wants w c ↔ w p = true :=
  ⟨fun ⟨_, hq, hw⟩ => hs.phase_eq hq hc ▸ hw, fun hw => ⟨p, hc, hw⟩⟩

@[simp] theorem desk_notify (s : TaskSet κ ξ) (n : SetNotice) : (s.notify n).desk = s.desk := rfl

@[simp] theorem desk_record (s : TaskSet κ ξ) (l : Level) (m : String)
    (fs : List (String × Field)) : (s.record l m fs).desk = s.desk := rfl

@[simp] theorem desk_tearDown (s : TaskSet κ ξ) (r : Registration κ ξ) (why : Departure) :
    (s.tearDown r why).desk = s.desk := rfl

@[simp] theorem desk_wakeHolder (s : TaskSet κ ξ) (c : Option CallId) :
    (s.wakeHolder c).desk = s.desk := by
  cases c <;> rfl

@[simp] theorem desk_setLoop (s : TaskSet κ ξ) (l : LoopId) (f : Loop → Loop) :
    (s.setLoop l f).desk = s.desk := rfl

@[simp] theorem desk_forgetLoop (s : TaskSet κ ξ) (l : LoopId) :
    (s.forgetLoop l).desk = s.desk := by
  unfold forgetLoop
  split
  · rfl
  · split <;> rfl

@[simp] theorem desk_forgetRoot (s : TaskSet κ ξ) : s.forgetRoot.desk = s.desk := by
  unfold forgetRoot
  split <;> rfl

@[simp] theorem desk_cancelLoop (s : TaskSet κ ξ) (l : LoopId) :
    (s.cancelLoop l).desk = s.desk := by
  unfold cancelLoop
  split <;> rfl

theorem desk_foldl {α : Type} {f : TaskSet κ ξ → α → TaskSet κ ξ}
    (hf : ∀ s a, (f s a).desk = s.desk) (xs : List α) (s : TaskSet κ ξ) :
    (xs.foldl f s).desk = s.desk := by
  induction xs generalizing s with
  | nil => rfl
  | cons a xs ih => rw [List.foldl_cons, ih, hf]

@[simp] theorem desk_wakeDraining (s : TaskSet κ ξ) : s.wakeDraining.desk = s.desk := by
  unfold wakeDraining
  split
  · exact desk_foldl (fun s x => desk_notify s _) _ s
  · rfl

@[simp] theorem desk_cancelRoot (s : TaskSet κ ξ) : s.cancelRoot.desk = s.desk := by
  unfold cancelRoot
  split
  · rfl
  · exact desk_foldl (fun s (x : Loop) => desk_cancelLoop s x.id) _ s

@[simp] theorem desk_startLoop (s : TaskSet κ ξ) (id : TaskId) :
    (s.startLoop id).desk = s.desk := by
  unfold startLoop
  split <;> rfl

@[simp] theorem desk_retire (s : TaskSet κ ξ) (r : Registration κ ξ) (why : Departure) :
    (s.retire r why).desk = s.desk := by
  unfold retire
  split <;> simp

@[simp] theorem desk_endLoop (s : TaskSet κ ξ) (l : LoopId) : (s.endLoop l).desk = s.desk := by
  simp [endLoop]

@[simp] theorem desk_enroll (s : TaskSet κ ξ) (r : Registration κ ξ) :
    (s.enroll r).desk = s.desk := by
  unfold enroll
  dsimp only
  split
  · exact desk_startLoop _ _
  · rfl

theorem desk_setPhase (s : TaskSet κ ξ) (c : CallId) (q : CallPhase κ ξ) :
    (s.setPhase c q).desk = s.desk.setPhase c q := rfl

theorem desk_lockLifecycle (s : TaskSet κ ξ) (c : CallId) :
    (s.lockLifecycle c).desk = s.desk.lockLifecycle c := rfl

theorem desk_leaveLifecycle (s : TaskSet κ ξ) (c : CallId) :
    (s.leaveLifecycle c).desk = { s.desk with lifecycleLock := (s.lifecycleLock.leave c).1 } :=
  desk_wakeHolder { s with lifecycleLock := (s.lifecycleLock.leave c).1 } _

theorem desk_leaveStartup (s : TaskSet κ ξ) (c : CallId) :
    (s.leaveStartup c).desk = { s.desk with startupLock := (s.startupLock.leave c).1 } :=
  desk_wakeHolder { s with startupLock := (s.startupLock.leave c).1 } _

/-- A call that ends leaves both locks. -/
theorem desk_endCall (s : TaskSet κ ξ) (c : CallId) :
    (s.endCall c).desk = { s.desk.without c with
      lifecycleLock := (s.lifecycleLock.leave c).1
      startupLock := (s.startupLock.leave c).1 } := by
  have hgone := desk_leaveLifecycle (s.without c) c
  have hstartup : ((s.without c).leaveLifecycle c).startupLock = s.startupLock := by
    have hsame := congrArg TaskSet.startupLock hgone
    exact hsame
  have hend : s.endCall c = ((s.without c).leaveLifecycle c).leaveStartup c := rfl
  rw [hend, desk_leaveStartup, hgone, hstartup]
  rfl

/-! ## Calls that go on -/

theorem ids_setPhase (s : TaskSet κ ξ) (c : CallId) (q : CallPhase κ ξ) :
    (s.setPhase c q).calls.map (·.id) = s.calls.map (·.id) := by
  simp only [setPhase, List.map_map]
  refine List.map_congr_left fun x _ => ?_
  dsimp only [Function.comp]
  split <;> rfl

theorem Orderly.withPhase (hs : Orderly s) (hc : ⟨c, p⟩ ∈ s.calls) {a b : Lock}
    (ha : a.Serves ((s.setPhase c q).Wants CallPhase.wantsLifecycle))
    (hb : b.Serves ((s.setPhase c q).Wants CallPhase.wantsStartup))
    (hq : q = .draining → s.lifecycle = .terminated) :
    Orderly { s.setPhase c q with lifecycleLock := a, startupLock := b } where
  distinct := (ids_setPhase s c q).symm ▸ hs.distinct
  lifecycle := ha
  startup := hb
  drains d hd := by
    rcases mem_setPhase hd with heq | ⟨hd, -⟩
    · exact hq (Call.mk.inj heq).2.symm
    · exact hs.drains d hd
  dropped hd := by
    have hnone : s.calls = [] := hs.dropped hd
    simp [hnone] at hc

/-- The call still wants what it wanted. -/
theorem Orderly.wants_same (hs : Orderly s) (hc : ⟨c, p⟩ ∈ s.calls) (hw : w q = w p) (d : CallId) :
    (s.setPhase c q).Wants w d ↔ s.Wants w d := by
  rw [wants_setPhase hc, hw]
  by_cases hd : d = c
  · subst hd
    simp [hs.wants_iff hc]
  · simp [hd]

/-- The call goes on without a change to what it wants. -/
theorem Orderly.shift (hs : Orderly s) (hc : ⟨c, p⟩ ∈ s.calls)
    (hl : q.wantsLifecycle = p.wantsLifecycle) (hst : q.wantsStartup = p.wantsStartup)
    (hq : q = .draining → s.lifecycle = .terminated) : Orderly (s.setPhase c q) :=
  hs.withPhase hc (hs.lifecycle.congr (hs.wants_same hc hl))
    (hs.startup.congr (hs.wants_same hc hst)) hq

/-- The call comes to want the lifecycle lock. -/
theorem Orderly.claim (hs : Orderly s) (hc : ⟨c, p⟩ ∈ s.calls) (hp : p.wantsLifecycle = false)
    (hq : q.wantsLifecycle = true) (hst : q.wantsStartup = p.wantsStartup) (hne : q ≠ .draining) :
    Orderly ((s.setPhase c q).lockLifecycle c) := by
  refine hs.withPhase hc (hs.lifecycle.acquire ?_ fun d => ?_)
    (hs.startup.congr (hs.wants_same hc hst)) fun h => absurd h hne
  · simp [hs.wants_iff hc, hp]
  · rw [wants_setPhase hc, hq]
    by_cases hd : d = c <;> simp [hd]

/-- The call lets go of the lifecycle lock. -/
theorem Orderly.release (hs : Orderly s) (hc : ⟨c, p⟩ ∈ s.calls) (hq : q.wantsLifecycle = false)
    (hst : q.wantsStartup = p.wantsStartup) : Orderly ((s.leaveLifecycle c).setPhase c q) := by
  have hdesk : ((s.leaveLifecycle c).setPhase c q).desk = ({ s.setPhase c q with
      lifecycleLock := (s.lifecycleLock.leave c).1 } : TaskSet κ ξ).desk := by
    rw [desk_setPhase, desk_leaveLifecycle]
    rfl
  refine Orderly.of_desk hdesk (hs.withPhase hc (hs.lifecycle.leave fun d => ?_)
    (hs.startup.congr (hs.wants_same hc hst)) fun h => ?_)
  · rw [wants_setPhase hc, hq]
    simp [and_comm]
  · rw [h] at hq
    contradiction

/-- The call lets go of the lifecycle lock and comes to want it again. -/
theorem Orderly.reclaim (hs : Orderly s) (hc : ⟨c, p⟩ ∈ s.calls) (hq : q.wantsLifecycle = true)
    (hst : q.wantsStartup = p.wantsStartup) (hne : q ≠ .draining) :
    Orderly (((s.leaveLifecycle c).lockLifecycle c).setPhase c q) := by
  have hdesk : (((s.leaveLifecycle c).lockLifecycle c).setPhase c q).desk =
      ({ s.setPhase c q with
        lifecycleLock := (s.lifecycleLock.leave c).1.acquire c } : TaskSet κ ξ).desk := by
    rw [desk_setPhase, desk_lockLifecycle, desk_leaveLifecycle]
    rfl
  have hleft : (s.lifecycleLock.leave c).1.Serves
      fun d => s.Wants CallPhase.wantsLifecycle d ∧ d ≠ c := hs.lifecycle.leave fun _ => Iff.rfl
  refine Orderly.of_desk hdesk (hs.withPhase hc (hleft.acquire (fun h => h.2 rfl) fun d => ?_)
    (hs.startup.congr (hs.wants_same hc hst)) fun h => absurd h hne)
  rw [wants_setPhase hc, hq]
  by_cases hd : d = c <;> simp [hd]

/-- The call is over. -/
theorem Orderly.endCall (hs : Orderly s) (c : CallId) : Orderly (s.endCall c) := by
  have hdesk : (s.endCall c).desk = ({ s.without c with
      lifecycleLock := (s.lifecycleLock.leave c).1
      startupLock := (s.startupLock.leave c).1 } : TaskSet κ ξ).desk := desk_endCall s c
  refine Orderly.of_desk hdesk ⟨?_, ?_, ?_, ?_, ?_⟩
  · exact hs.distinct.sublist (List.filter_sublist.map _)
  · exact hs.lifecycle.leave fun d => wants_without
  · exact hs.startup.leave fun d => wants_without
  · exact fun d hd => hs.drains d (mem_without hd)
  · intro hd
    have hnone : s.calls = [] := hs.dropped hd
    show s.calls.filter _ = []
    rw [hnone, List.filter_nil]

/-- The lifecycle may be anything in a set in which nobody waits for the loops. -/
theorem Orderly.withLifecycle (hs : Orderly s) (hl : s.lifecycle ≠ .terminated) (lc : Lifecycle) :
    Orderly { s with lifecycle := lc } :=
  { hs with drains := fun c hc => absurd (hs.drains c hc) hl }

end TaskSet

end Overseer
