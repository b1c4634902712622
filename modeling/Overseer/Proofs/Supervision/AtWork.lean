import Overseer.Proofs.Supervision.Scene

/-!
# Sets that are at work

What holds between two events of a set that has started and has not been dropped: nobody has the
lifecycle lock, every call in progress waits for an `init` or for the startup lock, every
registration has a loop of its own, no two loops were started for one registration, and the
registry is sorted (`atWork_of_run`). A set stays at work until it is destroyed or dropped
(`AtWork.perform`).
-/

namespace Overseer

variable {κ ξ : Type}

/-- The event neither destroys the set nor drops it. -/
def SetEvent.isSparing : SetEvent κ ξ → Bool
  | .begin _ .destroy _ => false
  | .drop => false
  | _ => true

namespace TaskSet

variable {us : List CallId} {s t : TaskSet κ ξ} {c : CallId} {p : CallPhase κ ξ}
  {turn : CallTurn} {d : Option Deed} {h : List (SetOccurrence κ ξ)} {e : SetEvent κ ξ}

/-! ## One loop for a registration -/

/-- Loops that are new belong to what is registered. -/
def Recruits (s t : TaskSet κ ξ) : Prop :=
  ∀ x ∈ t.loops, x.ticket ∈ t.tickets ∨ ∃ y ∈ s.loops, x.Follows y

theorem Recruits.sole (h : Recruits s t) (ht : Sound us t) (hn : s.Sole) : t.Sole := by
  refine (List.Nodup.of_map _ ht.loopIds).map_on fun x hx y hy hk => ?_
  refine List.inj_on_of_nodup_map ht.loopIds hx hy ?_
  by_cases hmem : x.ticket ∈ t.tickets
  · obtain ⟨r, hr, hrk⟩ := mem_tickets.1 hmem
    have hxr := ht.owner r hr x hx hrk.symm
    have hyr := ht.owner r hr y hy (hk.symm.trans hrk.symm)
    exact Option.some.inj (hxr.symm.trans hyr)
  · obtain ⟨x', hx', hxx⟩ := (h x hx).resolve_left hmem
    obtain ⟨y', hy', hyy⟩ := (h y hy).resolve_left fun hno => hmem (hk ▸ hno)
    have hsame : x' = y' :=
      List.inj_on_of_nodup_map hn hx' hy' (hxx.ticket.symm.trans (hk.trans hyy.ticket))
    rw [hxx.id, hyy.id, hsame]

theorem recruits_of_loops (h : t.loops = s.loops) : Recruits s t :=
  fun x hx => .inr ⟨x, h ▸ hx, .refl x⟩

theorem GoesOn.recruits {torn : List TaskRef} (h : GoesOn torn s t) : Recruits s t :=
  fun x hx => .inr (h.loops x hx)

theorem Recruits.startLoop (h : Recruits s t) (id : TaskId) : Recruits s (t.startLoop id) := by
  intro x hx
  rw [tickets_startLoop]
  cases hr : t.registry.lookup? id with
  | none => exact h x (by simpa [TaskSet.startLoop, hr] using hx)
  | some r =>
    rw [startLoop_eq hr] at hx
    rcases List.mem_append.1 hx with hx | hx
    · exact h x hx
    · obtain rfl := List.mem_singleton.1 hx
      exact .inl (mem_tickets.2 ⟨r, Registry.mem_of_lookup? hr, rfl⟩)

theorem Recruits.startLoops (ids : List TaskId) :
    ∀ {t : TaskSet κ ξ}, Recruits s t → Recruits s (ids.foldl TaskSet.startLoop t) := by
  induction ids with
  | nil => exact fun h => h
  | cons id ids ih => exact fun h => ih (h.startLoop id)

theorem Move.recruits (h : Move s d t) : Recruits s t := by
  cases h with
  | goesOn h => exact h.recruits
  | starts b _ _ => exact (recruits_of_loops rfl).startLoops _
  | @enrolls c p r hc _ _ =>
    obtain ⟨u, hgo, heq⟩ := enroll_without s r c
    have hu : Recruits s u := fun x hx => .inr (hgo.loops x hx)
    rw [heq]
    split
    · exact hu.startLoop _
    · exact hu
  | refuses _ h => exact fun x hx => .inr (h.loops x hx)
  | removes _ _ _ _ h _ => exact fun x hx => .inr (h.loops x hx)
  | displaces _ _ _ h => exact fun x hx => .inr (h.loops x hx)
  | demolishes h _ => exact fun x hx => .inr (h.loops x hx)
  | drops _ h _ => exact fun x hx => .inr (h.loops x hx)
  | _ => exact recruits_of_loops rfl

theorem sole_of_run (hrun : (setSystem κ ξ).Run h s) : s.Sole := by
  induction hrun with
  | start hstart =>
    obtain ⟨name, pool, rfl⟩ := hstart
    exact List.nodup_nil
  | @next h s e hrun hall ih =>
    have hs := (sound_of_run hrun).entered hall
    obtain ⟨d, hcourse, -⟩ := course_of_perform (sound_of_run hrun) hall
    have hentered : (s.entered e).Sole := by cases e <;> exact ih
    exact hcourse.keepsSound (P := Sole) (fun hm hs hn => hm.recruits.sole (hm.sound hs) hn) hs
      hentered

/-! ## Between two events -/

/-- What holds of a set that has started and has not been dropped. -/
structure AtWork (us : List CallId) (s : TaskSet κ ξ) : Prop where
  sound : Sound us s
  started : s.lifecycle = .started
  undropped : s.dropped = false
  free : s.lifecycleLock.holder = none
  phases : ∀ x ∈ s.calls, (∃ r, x.phase = .initializing r) ∨ x.phase = .queued
  tended : ∀ r ∈ s.registry, ∃ x ∈ s.loops, r.loop = some x.id ∧ x.ticket = r.ticket ∧
    x.task = r.task
  sole : s.Sole
  sorted : s.registry.IsSorted
  silent : s.notices = []

theorem atWork_of_run (hrun : (setSystem κ ξ).Run h s) (hl : s.lifecycle = .started)
    (hd : s.dropped = false) : AtWork (begun h) s := by
  have hs := sound_of_run hrun
  have ho := orderly_of_run hrun
  have hidle := (prompt_of_run hrun).lifecycle (by simp [hl])
  refine ⟨hs, hl, hd, ?_, fun x hx => ?_, fun r hr => ?_, sole_of_run hrun,
    isSorted_of_run hrun, notices_of_run hrun⟩
  · cases hheld : s.lifecycleLock.holder with
    | none => rfl
    | some c => exact absurd ((ho.lifecycle.mem c).1 (by simp [Lock.claimants, hheld])) (hidle c)
  · obtain ⟨c, p⟩ := x
    cases p with
    | initializing r => exact .inl ⟨r, rfl⟩
    | queued => exact .inr rfl
    | preparing current rest =>
      have hstarting := hs.starting _ hx rfl
      simp [hl] at hstarting
    | _ => exact absurd ⟨_, hx, rfl⟩ (hidle c)
  · obtain ⟨x, hx, hloop, hticket, htask, -⟩ := tended_of_run hrun hl r hr
    exact ⟨x, hx, hloop, hticket, htask⟩

/-! ## Staying at work -/

/-- A turn of a call that is neither a startup under way nor a destroy call leaves a set started. -/
theorem Takes.started (ht : Takes c s p t turn) (hk : p.kind ≠ .destroy)
    (hp : p.isStartup = false) (hl : s.lifecycle = .started) : t.lifecycle = .started := by
  induction ht with
  | waits s p => exact hl
  | alike ha _ ih => exact ih hk hp (ha.lifecycle.trans hl)
  | unqueues _ _ ih => exact ih nofun rfl hl
  | opens hst _ _ => cases hst.symm.trans hl
  | passes _ ha => exact ha.lifecycle.trans hl
  | fails hst _ => cases hst.symm.trans hl
  | expires hst _ _ => cases hst.symm.trans hl
  | comesLate _ _ ha => exact ha.lifecycle.trans hl
  | refuses _ ha => exact ha.lifecycle.trans hl
  | enrolls _ _ ha => exact ha.lifecycle.trans ((enroll_same _ _ c).1.trans hl)
  | loses _ ha => exact ha.lifecycle.trans hl
  | ends ha => exact ha.lifecycle.trans hl
  | _ => contradiction

theorem Gives.started (hg : Gives s e t turn) (hs : AtWork us s) (he : e.isSparing = true) :
    t.lifecycle = .started := by
  have hphase : ∀ {c : CallId} {p : CallPhase κ ξ}, ⟨c, p⟩ ∈ s.calls →
      p.kind ≠ .destroy ∧ p.isStartup = false := by
    intro c p hc
    rcases hs.phases _ hc with ⟨r, hp⟩ | hp
    · obtain rfl : p = .initializing r := hp
      exact ⟨nofun, rfl⟩
    · obtain rfl : p = .queued := hp
      exact ⟨nofun, rfl⟩
  cases hg with
  | @begins c request b t turn ht =>
    refine ht.started ?_ ?_ hs.started
    · cases request with
      | destroy => contradiction
      | _ => nofun
    · cases request <;> rfl
  | polls hc ht => exact ht.started (hphase hc).1 (hphase hc).2 hs.started
  | comesBack hc ht => exact ht.started nofun rfl hs.started
  | breaks hc ha => exact ha.lifecycle.trans hs.started
  | goesOn hc ht => cases (hphase hc).2
  | aborts hc ht => cases (hphase hc).2
  | misses _ _ => exact hs.started

/-- A set stays at work until it is destroyed or dropped. -/
theorem AtWork.perform (hs : AtWork (begun h) s) (hall : allows h s e = true)
    (he : e.isSparing = true) :
    (s.perform e).1.lifecycle = .started ∧ (s.perform e).1.dropped = false := by
  have hdropped : (s.perform e).1.dropped = s.dropped :=
    dropped_of_perform hs.sound hall fun hdrop => by
      subst hdrop
      contradiction
  refine ⟨?_, hdropped.trans hs.undropped⟩
  cases hc : e.caller? with
  | some c =>
    obtain ⟨turn, -, hgives⟩ := gives_of_perform hs.sound hall hc
    exact hgives.started hs he
  | none =>
    rcases desk_of_perform (s := s) hc with ⟨c, rfl⟩ | hdesk
    · show (s.abandon c).lifecycle = _
      unfold abandon
      split
      · exact (alike_endCall s c).lifecycle.trans hs.started
      · exact hs.started
    · exact (congrArg TaskSet.lifecycle hdesk :).trans hs.started

end TaskSet

end Overseer
