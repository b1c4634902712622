import Overseer.Proofs.Supervision.Failure
import Overseer.Proofs.Supervision.Order

/-!
# Loops that hand over an error

A loop begins to hand over an error in one way only: its run has failed, and what is registered of
its task has a callback. Everything else is `Hushed`, and leaves the pool of the set as it is, too
(`hushed_of_perform`, `pool_perform`).
-/

namespace Overseer

variable {κ ξ : Type}

namespace TaskSet

variable {s t u : TaskSet κ ξ} {c : CallId} {l : LoopId} {p : CallPhase κ ξ} {turn : CallTurn}
  {h : List (SetOccurrence κ ξ)} {e : SetEvent κ ξ} {torn : List TaskRef}

/-- No loop has begun to hand over an error between `s` and `t`. -/
structure Hushed (s t : TaskSet κ ξ) : Prop where
  pool : t.pool = s.pool
  loops : ∀ y ∈ t.loops, y.phase = .reporting → ∃ x ∈ s.loops, x.id = y.id ∧ x.phase = .reporting

theorem Hushed.trans (h : Hushed s t) (h' : Hushed t u) : Hushed s u := by
  refine ⟨h'.pool.trans h.pool, fun z hz hphase => ?_⟩
  obtain ⟨y, hy, hid, hphase⟩ := h'.loops z hz hphase
  obtain ⟨x, hx, hid', hphase⟩ := h.loops y hy hphase
  exact ⟨x, hx, hid'.trans hid, hphase⟩

theorem hushed_of_fewer (hp : t.pool = s.pool) (hl : ∀ y ∈ t.loops, y ∈ s.loops) : Hushed s t :=
  ⟨hp, fun y hy hphase => ⟨y, hl y hy, rfl, hphase⟩⟩

theorem hushed_of_same (hp : t.pool = s.pool) (hl : t.loops = s.loops) : Hushed s t :=
  hushed_of_fewer hp fun _ hy => hl ▸ hy

theorem Hushed.refl (s : TaskSet κ ξ) : Hushed s s := hushed_of_same rfl rfl

theorem Hushed.since (h : Hushed t u) (hp : t.pool = s.pool) (hl : t.loops = s.loops) :
    Hushed s u := (hushed_of_same hp hl).trans h

theorem Hushed.until (h : Hushed s t) (hp : u.pool = t.pool) (hl : u.loops = t.loops) :
    Hushed s u := h.trans (hushed_of_same hp hl)

theorem Hushed.foldl {α : Type} {f : TaskSet κ ξ → α → TaskSet κ ξ} (hf : ∀ s a, Hushed s (f s a))
    (xs : List α) (s : TaskSet κ ξ) : Hushed s (xs.foldl f s) := by
  induction xs generalizing s with
  | nil => exact .refl s
  | cons a xs ih => exact (hf s a).trans (ih _)

/-! ## Small changes -/

theorem hushed_notify (s : TaskSet κ ξ) (n : SetNotice) : Hushed s (s.notify n) :=
  hushed_of_same rfl rfl

theorem Alike.hushed (h : Alike torn s t) : Hushed s t :=
  hushed_of_same (by rw [h.same]) h.loops

theorem hushed_setLoop (s : TaskSet κ ξ) (l : LoopId) {f : Loop → Loop}
    (hf : ∀ x, (f x).id = x.id ∧ ((f x).phase = .reporting → x.phase = .reporting)) :
    Hushed s (s.setLoop l f) := by
  refine ⟨rfl, fun y hy hphase => ?_⟩
  obtain ⟨x, hx, rfl⟩ := List.mem_map.1 hy
  by_cases hid : x.id = l
  · rw [if_pos (beq_iff_eq.2 hid)] at hphase ⊢
    exact ⟨x, hx, (hf x).1.symm, (hf x).2 hphase⟩
  · rw [if_neg (by simpa using hid)] at hphase ⊢
    exact ⟨x, hx, rfl, hphase⟩

theorem hushed_forgetLoop (s : TaskSet κ ξ) (l : LoopId) : Hushed s (s.forgetLoop l) := by
  unfold forgetLoop
  split
  · exact .refl s
  · split
    · exact hushed_of_fewer rfl fun _ hy => mem_of_mem_swapRemove hy
    · exact .refl s

theorem hushed_elim_forgetLoop (s : TaskSet κ ξ) (l : Option LoopId) :
    Hushed s (l.elim s s.forgetLoop) := by
  cases l with
  | none => exact .refl s
  | some l => exact hushed_forgetLoop s l

theorem hushed_forgetRoot (s : TaskSet κ ξ) : Hushed s s.forgetRoot := by
  unfold forgetRoot
  split <;> exact hushed_of_same rfl rfl

theorem hushed_cancelLoop (s : TaskSet κ ξ) (l : LoopId) : Hushed s (s.cancelLoop l) := by
  unfold cancelLoop
  split
  · refine Hushed.trans ?_ (hushed_notify _ _)
    exact hushed_setLoop s l fun _ => ⟨rfl, fun h => h⟩
  · exact .refl s

theorem hushed_cancelRoot (s : TaskSet κ ξ) : Hushed s s.cancelRoot := by
  unfold cancelRoot
  split
  · exact .refl s
  · have hfold := Hushed.foldl (fun s (x : Loop) => hushed_cancelLoop s x.id) s.loops.reverse s
    exact hfold.until rfl rfl

theorem hushed_wakeDraining (s : TaskSet κ ξ) : Hushed s s.wakeDraining := by
  unfold wakeDraining
  split
  · exact Hushed.foldl (fun s x => hushed_notify s _) _ s
  · exact .refl s

theorem hushed_endLoop (s : TaskSet κ ξ) (l : LoopId) : Hushed s (s.endLoop l) := by
  have hended : Hushed s (s.setLoop l fun x => { x with phase := .ended }) :=
    hushed_setLoop s l fun x => ⟨rfl, fun h => nomatch h⟩
  exact ((hended.trans (hushed_wakeDraining _)).trans (hushed_forgetLoop _ l)).trans
    (hushed_forgetRoot _)

theorem hushed_retire (s : TaskSet κ ξ) (r : Registration κ ξ) (why : Departure) :
    Hushed s (s.retire r why) := by
  unfold retire
  split
  · exact hushed_notify _ _
  · exact ((hushed_cancelLoop s _).trans (hushed_notify _ _)).trans (hushed_forgetLoop _ _)

theorem hushed_startLoop (s : TaskSet κ ξ) (id : TaskId) : Hushed s (s.startLoop id) := by
  cases hr : s.registry.lookup? id with
  | none => simpa [startLoop, hr] using Hushed.refl s
  | some r =>
    rw [startLoop_eq hr]
    refine ⟨rfl, fun y hy hphase => ?_⟩
    rcases List.mem_append.1 hy with hy | hy
    · exact ⟨y, hy, rfl, hphase⟩
    · obtain rfl := List.mem_singleton.1 hy
      contradiction

/-! ## Calls -/

theorem hushed_cancelRoot_if (s : TaskSet κ ξ) :
    Hushed s (if s.lifecycle == .started then s.cancelRoot else s) := by
  split
  · exact hushed_cancelRoot s
  · exact .refl s

theorem hushed_cleared (s : TaskSet κ ξ) : Hushed s s.cleared := by
  have hretire := Hushed.foldl fun (s : TaskSet κ ξ) r => hushed_retire s r .destroyed
  have hroot := hushed_cancelRoot_if s
  unfold cleared
  generalize (if s.lifecycle == .started then s.cancelRoot else s) = u at hroot ⊢
  refine hroot.trans (Hushed.trans ?_ (hushed_forgetRoot _))
  exact (hretire _ _).since (by split <;> rfl) (by split <;> rfl)

theorem hushed_enroll (s : TaskSet κ ξ) (r : Registration κ ξ) : Hushed s (s.enroll r) := by
  unfold enroll
  dsimp only
  split
  · exact (hushed_startLoop _ _).since rfl rfl
  · exact hushed_of_same rfl rfl

theorem Takes.hushed (ht : Takes c s p t turn) : Hushed s t := by
  induction ht with
  | waits s p => exact .refl s
  | alike ha _ ih => exact ha.hushed.trans ih
  | unqueues _ _ ih => exact ih.since rfl rfl
  | opens _ _ ih => exact ih.since rfl rfl
  | @starts s t b hl ha =>
    have hlaunched : Hushed s (s.launched c b) := (Hushed.foldl hushed_startLoop _ _).since rfl rfl
    exact hlaunched.trans ha.hushed
  | @givesUp s t current source ha =>
    refine Hushed.trans (t := s.givenUp c) ?_ ha.hushed
    unfold givenUp
    split <;> exact hushed_of_same rfl rfl
  | @enrolls s t p r _ _ ha =>
    exact (hushed_enroll s r).trans (ha.hushed.since rfl rfl)
  | @demolishes s t ha => exact (hushed_cleared s).trans (ha.hushed.since rfl rfl)
  | @drains s t ha => exact (hushed_cleared s).trans (ha.hushed.since rfl rfl)
  | passes _ ha => exact ha.hushed.since rfl rfl
  | fails _ ha => exact ha.hushed.since rfl rfl
  | expires _ _ ha => exact ha.hushed.since rfl rfl
  | prepares _ ha => exact ha.hushed.since rfl rfl
  | comesLate _ _ ha => exact ha.hushed.since rfl rfl
  | refuses _ ha => exact ha.hushed.since rfl rfl
  | loses _ ha => exact ha.hushed.since rfl rfl
  | ends ha => exact ha.hushed.since rfl rfl

theorem Gives.hushed (hg : Gives s e t turn) : Hushed s t := by
  cases hg with
  | begins ht => exact ht.hushed.since rfl rfl
  | polls _ ht => exact ht.hushed
  | comesBack _ ht => exact ht.hushed.since rfl rfl
  | breaks _ ha => exact ha.hushed.since rfl rfl
  | goesOn _ ht => exact ht.hushed.since rfl rfl
  | aborts _ ht => exact ht.hushed.since rfl rfl
  | misses _ _ => exact .refl s

/-! ## Loops -/

theorem hushed_rest (s : TaskSet κ ξ) (l : LoopId) (now : Nat) : Hushed s (s.rest l now).1 := by
  unfold rest
  split
  · exact .refl s
  · split
    · exact hushed_endLoop s l
    · exact hushed_setLoop s l fun _ => ⟨rfl, nofun⟩

theorem hushed_pollLoop (s : TaskSet κ ξ) (l : LoopId) (now : Nat) :
    Hushed s (s.pollLoop l now).1 := by
  unfold pollLoop
  split
  · exact .refl s
  · split
    · exact (hushed_rest _ l now).since rfl rfl
    · split
      · exact hushed_endLoop s l
      · split
        · exact hushed_setLoop s l fun _ => ⟨rfl, nofun⟩
        · exact .refl s
    all_goals exact .refl s

theorem hushed_drop (s : TaskSet κ ξ) : Hushed s s.drop := by
  have htear := Hushed.foldl fun (s : TaskSet κ ξ) (r : Registration κ ξ) =>
    hushed_notify s (.tearDown r.task r.state .destroyed)
  have hforget := Hushed.foldl fun (s : TaskSet κ ξ) (r : Registration κ ξ) =>
    hushed_elim_forgetLoop s r.loop
  unfold drop
  refine (hushed_cancelRoot_if s).trans (Hushed.trans ?_ (hushed_forgetRoot _))
  exact ((htear _ _).trans (hforget _ _)).since rfl rfl

/-- What a loop that has failed hands over is what it reports. -/
structure Reports (s t : TaskSet κ ξ) (l : LoopId) (turn : LoopTurn κ) : Prop where
  pool : t.pool = s.pool
  loops : ∀ y ∈ t.loops, y.phase = .reporting →
    (∃ x ∈ s.loops, x.id = y.id ∧ x.phase = .reporting) ∨
      y.id = l ∧ ∃ callback task error pool, turn = .report callback task error pool

theorem Hushed.reports (h : Hushed s t) (l : LoopId) (turn : LoopTurn κ) : Reports s t l turn :=
  ⟨h.pool, fun y hy hphase => .inl (h.loops y hy hphase)⟩

theorem reports_fail (s : TaskSet κ ξ) (l : LoopId) (task : TaskRef) (error : Fault) :
    Reports s (s.fail l task error).1 l (s.fail l task error).2 := by
  unfold fail
  split
  · exact ((hushed_notify s _).trans (hushed_endLoop _ l)).reports l _
  · rename_i r hr
    have helim : ∀ u : TaskSet κ ξ, u.pool = s.pool → u.loops = s.loops →
        Hushed s (r.loop.elim u u.forgetLoop) := fun u hp hl =>
      (hushed_elim_forgetLoop u _).since hp hl
    have hleft := helim ({ s with registry := s.registry.remove task.id }.tearDown r .failed) rfl rfl
    dsimp only
    split
    · exact (hleft.trans (hushed_endLoop _ l)).reports l _
    · rename_i callback hcallback
      refine ⟨hleft.pool, fun y hy hphase => ?_⟩
      obtain ⟨x, hx, rfl⟩ := List.mem_map.1 hy
      by_cases hid : x.id = l
      · exact .inr ⟨by simp [hid], _, _, _, _, rfl⟩
      · simp only [beq_eq_false_iff_ne.2 hid, Bool.false_eq_true, if_false] at hphase ⊢
        exact .inl (hleft.loops x hx hphase)

theorem reports_ran (s : TaskSet κ ξ) (l : LoopId) (now : Nat) (ending : Ending Unit) :
    Reports s (s.ran l now ending).1 l (s.ran l now ending).2 := by
  rcases ran_cases s l now ending with ⟨-, heq⟩ | ⟨x, -, ⟨-, heq⟩ | ⟨error, -, heq⟩⟩
  · rw [heq]
    exact (Hushed.refl s).reports l _
  · rw [heq]
    exact (hushed_rest s l now).reports l _
  · rw [heq]
    split
    · have hended : Hushed s ((s.warned error).endLoop l) := (hushed_endLoop _ l).since rfl rfl
      exact hended.reports l _
    · have hfail := reports_fail (s.warned error) l x.task error
      exact ⟨hfail.pool, hfail.loops⟩

/-- What is handed over goes to the callback of a registration, in its own pool or in that of the
set. -/
theorem registration_of_report {now : Nat} {ending : Ending Unit} {callback : κ} {task : TaskRef}
    {error : Fault} {pool : Option PoolId}
    (hturn : (s.ran l now ending).2 = .report callback task error pool) :
    ∃ r ∈ s.registry, r.options.onError = some callback ∧ pool = r.options.pool.or s.pool := by
  obtain ⟨x, r, hx, -, hfail, hr⟩ := registered_of_ran hturn
  have hopen : s.dropped = false := by
    rw [ran_of_error? hx hfail] at hturn
    split at hturn
    · contradiction
    · rename_i hdropped
      simpa using hdropped
  rw [(ran_of_registered hfail hx hopen hr now).2, handing] at hturn
  refine ⟨r, List.mem_of_find?_eq_some hr, ?_⟩
  split at hturn
  · contradiction
  · rename_i callback' hcallback
    obtain ⟨rfl, -, -, rfl⟩ := LoopTurn.report.inj hturn
    exact ⟨hcallback, rfl⟩

/-- Only a run that has failed makes a loop hand over an error. -/
theorem hushed_of_perform (hs : Sound (begun h) s) (hall : allows h s e = true)
    (hran : ∀ l now ending, e ≠ .ran l now ending) : Hushed s (s.perform e).1 := by
  cases hc : e.caller? with
  | some c =>
    obtain ⟨turn, -, hgives⟩ := gives_of_perform hs hall hc
    exact hgives.hushed
  | none =>
    cases e with
    | abandon c =>
      show Hushed s (s.abandon c)
      unfold abandon
      split
      · exact (alike_endCall s c).hushed.since rfl rfl
      · exact .refl s
    | unregister task =>
      show Hushed s (s.unregister task).1
      unfold unregister
      split
      · exact .refl s
      · exact (hushed_retire _ _ _).since rfl rfl
    | pollLoop l now => exact hushed_pollLoop s l now
    | ran l now ending => exact absurd rfl (hran l now ending)
    | reported l poolName result =>
      show Hushed s (s.reported l poolName result)
      unfold reported
      split
      · exact hushed_endLoop s l
      · exact (hushed_notify s _).trans (hushed_endLoop _ l)
    | killLoop l =>
      show Hushed s (s.killLoop l)
      unfold killLoop
      split
      · exact .refl s
      · split
        · exact .refl s
        · exact hushed_endLoop s l
    | cancelRoot => exact hushed_cancelRoot s
    | drop => exact hushed_drop s
    | _ => simp [SetEvent.caller?] at hc

theorem pool_perform (hs : Sound (begun h) s) (hall : allows h s e = true) :
    (s.perform e).1.pool = s.pool := by
  by_cases hran : ∃ l now ending, e = .ran l now ending
  · obtain ⟨l, now, ending, rfl⟩ := hran
    exact (reports_ran s l now ending).pool
  · exact (hushed_of_perform hs hall fun l now ending he => hran ⟨l, now, ending, he⟩).pool

end TaskSet

end Overseer
