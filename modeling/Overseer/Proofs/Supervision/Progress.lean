import Mathlib.Data.List.Nodup
import Overseer.Proofs.Supervision.Events

/-!
# What moves on its own

Most small functions of a set leave alone who is registered and how far its calls have come. They
hand locks over, write notices, and let loops go on. `GoesOn torn s t` says that nothing else
happened between `s` and `t`, and that the tasks `torn` were torn down meanwhile. It is
reflexive (`GoesOn.refl`) and transitive (`GoesOn.trans`), and every small function has a lemma
that says it goes on.

A loop `y` of `t` is some loop `x` of `s` at a later time (`Loop.Follows`) : it may have been
stopped, and once it has been stopped it does not come back.
-/

namespace Overseer

/-- One stay of a task in a set: the call that registered it, and the task. -/
abbrev Stay := CallId × TaskRef

/-- The stay that a registration stands for. -/
def Registration.stay {κ ξ : Type} (r : Registration κ ξ) : Stay := (r.ticket, r.task)

/-- The task that a notice tears down. -/
def SetNotice.tornDown? : SetNotice → Option TaskRef
  | .tearDown task _ _ => some task
  | _ => none

namespace Loop

/-- Has the loop not failed and not come to its end? -/
def isPolling (x : Loop) : Bool :=
  match x.phase with
  | .spawned => true
  | .waiting _ => true
  | .running => true
  | .reporting => false
  | .ended => false

/-- Does the loop poll with nothing to stop it? -/
def isLive (x : Loop) : Bool := x.isPolling && !x.cancelled

/-- The loop `y` is the loop `x` at a later time. -/
structure Follows (y x : Loop) : Prop where
  id : y.id = x.id
  ticket : y.ticket = x.ticket
  task : y.task = x.task
  live : y.isLive = true → x.isLive = true

theorem Follows.refl (x : Loop) : x.Follows x := ⟨rfl, rfl, rfl, fun h => h⟩

theorem Follows.trans {x y z : Loop} (h : z.Follows y) (h' : y.Follows x) : z.Follows x :=
  ⟨h.id.trans h'.id, h.ticket.trans h'.ticket, h.task.trans h'.task,
    fun hl => h'.live (h.live hl)⟩

/-- What has been stopped stays so. -/
theorem Follows.stopped {x y : Loop} (h : y.Follows x) (hx : x.isLive = false) :
    y.isLive = false := by
  refine Bool.eq_false_iff.2 fun hy => ?_
  simp [h.live hy] at hx

end Loop

namespace TaskSet

variable {κ ξ : Type} {s t u : TaskSet κ ξ} {torn torn' : List TaskRef}

/-- The stays in a set, in the order in which tasks are visited. -/
def stays (s : TaskSet κ ξ) : List Stay := s.registry.map (·.stay)

/-- The tickets of the registrations of a set. -/
def tickets (s : TaskSet κ ξ) : List CallId := s.registry.map (·.ticket)

/-- The tasks that the notices of a set tear down. -/
def tornDown (s : TaskSet κ ξ) : List TaskRef := s.notices.filterMap SetNotice.tornDown?

theorem mem_tickets {k : CallId} : k ∈ s.tickets ↔ ∃ r ∈ s.registry, r.ticket = k := List.mem_map

theorem tickets_eq_map_stays (s : TaskSet κ ξ) : s.tickets = s.stays.map Prod.fst := by
  simp [tickets, stays, Registration.stay]

theorem tickets_of_stays (h : t.stays = s.stays) : t.tickets = s.tickets := by
  rw [tickets_eq_map_stays, tickets_eq_map_stays, h]

/-- A call that is over is forgotten. -/
def without (s : TaskSet κ ξ) (c : CallId) : TaskSet κ ξ :=
  { s with calls := s.calls.filter (·.id != c) }

theorem mem_without {c : CallId} {x : Call κ ξ} (h : x ∈ (s.without c).calls) : x ∈ s.calls :=
  (List.mem_filter.1 h).1

/-- Only locks, notices and loops have changed, and `torn` were torn down. -/
structure GoesOn (torn : List TaskRef) (s t : TaskSet κ ξ) : Prop where
  lifecycle : t.lifecycle = s.lifecycle
  dropped : t.dropped = s.dropped
  registry : t.registry = s.registry
  calls : t.calls = s.calls
  nextLoop : t.nextLoop = s.nextLoop
  tornDown : t.tornDown = s.tornDown ++ torn
  loops : ∀ y ∈ t.loops, ∃ x ∈ s.loops, y.Follows x
  distinct : (s.loops.map (·.id)).Nodup → (t.loops.map (·.id)).Nodup
  rooted : s.lifecycle = .started → s.dropped = false → s.isRooted = true → t.isRooted = true
  rootCancelled : t.rootCancelled = true →
    s.rootCancelled = true ∨ ∀ y ∈ t.loops, y.isLive = false

/-- Every loop of that number has been stopped. -/
def IsHalted (s : TaskSet κ ξ) (l : Option LoopId) : Prop :=
  ∀ y ∈ s.loops, l = some y.id → y.isLive = false

theorem GoesOn.refl (s : TaskSet κ ξ) : GoesOn [] s s :=
  ⟨rfl, rfl, rfl, rfl, rfl, by simp, fun y hy => ⟨y, hy, .refl y⟩, fun h => h, fun _ _ h => h,
    Or.inl⟩

theorem GoesOn.trans (h : GoesOn torn s t) (h' : GoesOn torn' t u) :
    GoesOn (torn ++ torn') s u where
  lifecycle := h'.lifecycle.trans h.lifecycle
  dropped := h'.dropped.trans h.dropped
  registry := h'.registry.trans h.registry
  calls := h'.calls.trans h.calls
  nextLoop := h'.nextLoop.trans h.nextLoop
  tornDown := by rw [h'.tornDown, h.tornDown, List.append_assoc]
  loops z hz := by
    obtain ⟨y, hy, hzy⟩ := h'.loops z hz
    obtain ⟨x, hx, hyx⟩ := h.loops y hy
    exact ⟨x, hx, hzy.trans hyx⟩
  distinct hd := h'.distinct (h.distinct hd)
  rooted hl hd hr :=
    h'.rooted (h.lifecycle.trans hl) (h.dropped.trans hd) (h.rooted hl hd hr)
  rootCancelled hc := by
    rcases h'.rootCancelled hc with hc | hall
    · refine (h.rootCancelled hc).imp_right fun hall z hz => ?_
      obtain ⟨y, hy, hzy⟩ := h'.loops z hz
      exact hzy.stopped (hall y hy)
    · exact Or.inr hall

theorem GoesOn.stays (h : GoesOn torn s t) : t.stays = s.stays := by
  rw [TaskSet.stays, h.registry, TaskSet.stays]

theorem GoesOn.tickets (h : GoesOn torn s t) : t.tickets = s.tickets := tickets_of_stays h.stays

theorem GoesOn.then (h : GoesOn torn s t) (h' : GoesOn [] t u) : GoesOn torn s u := by
  simpa using h.trans h'

theorem GoesOn.halted (h : GoesOn torn s t) {l : Option LoopId} (hl : s.IsHalted l) :
    t.IsHalted l := by
  intro y hy hid
  obtain ⟨x, hx, hyx⟩ := h.loops y hy
  rw [hyx.id] at hid
  exact hyx.stopped (hl x hx hid)

/-! ## Notices and locks -/

theorem goesOn_of_notices (a b : Lock) {ns : List SetNotice}
    (h : ns.filterMap SetNotice.tornDown? = s.tornDown ++ torn) :
    GoesOn torn s { s with lifecycleLock := a, startupLock := b, notices := ns } :=
  ⟨rfl, rfl, rfl, rfl, rfl, h, fun y hy => ⟨y, hy, .refl y⟩, fun h => h, fun _ _ h => h, Or.inl⟩

theorem goesOn_notify {n : SetNotice} (h : n.tornDown? = none) : GoesOn [] s (s.notify n) :=
  goesOn_of_notices s.lifecycleLock s.startupLock (by simp [tornDown, h])

theorem goesOn_tearDown (s : TaskSet κ ξ) (r : Registration κ ξ) (why : Departure) :
    GoesOn [r.task] s (s.tearDown r why) :=
  goesOn_of_notices s.lifecycleLock s.startupLock (by simp [tornDown, SetNotice.tornDown?])

theorem goesOn_record (s : TaskSet κ ξ) (l : Level) (m : String) (fs : List (String × Field)) :
    GoesOn [] s (s.record l m fs) := goesOn_notify rfl

theorem goesOn_loopRecord (s : TaskSet κ ξ) (l : Level) (m : String)
    (fs : List (String × Field)) : GoesOn [] s (s.loopRecord l m fs) := goesOn_notify rfl

/-- Locks change hands. -/
theorem goesOn_locks (s : TaskSet κ ξ) (a b : Lock) :
    GoesOn [] s { s with lifecycleLock := a, startupLock := b } :=
  goesOn_of_notices a b (by simp [tornDown])

theorem goesOn_lockLifecycle (s : TaskSet κ ξ) (c : CallId) : GoesOn [] s (s.lockLifecycle c) :=
  goesOn_locks s _ s.startupLock

theorem goesOn_wakeHolder (s : TaskSet κ ξ) (c : Option CallId) :
    GoesOn [] s (s.wakeHolder c) := by
  cases c with
  | none => exact .refl s
  | some c => exact goesOn_notify rfl

theorem goesOn_leaveLifecycle (s : TaskSet κ ξ) (c : CallId) :
    GoesOn [] s (s.leaveLifecycle c) :=
  (goesOn_locks s _ s.startupLock).then (goesOn_wakeHolder _ _)

theorem goesOn_leaveStartup (s : TaskSet κ ξ) (c : CallId) : GoesOn [] s (s.leaveStartup c) :=
  (goesOn_locks s s.lifecycleLock _).then (goesOn_wakeHolder _ _)

/-- A call that ends leaves nothing but its locks behind. -/
theorem goesOn_endCall (s : TaskSet κ ξ) (c : CallId) : GoesOn [] (s.without c) (s.endCall c) :=
  (goesOn_leaveLifecycle (s.without c) c).then (goesOn_leaveStartup _ c)

theorem GoesOn.setPhase (h : GoesOn [] s t) (q : CallPhase κ ξ) :
    GoesOn [] (s.setPhase c q) (t.setPhase c q) :=
  { h with
    calls := by
      show t.calls.map _ = s.calls.map _
      rw [h.calls] }

/-! ## Folds -/

section Folds

variable {α : Type} {f : TaskSet κ ξ → α → TaskSet κ ξ} {g : α → List TaskRef}

theorem goesOn_foldl (hf : ∀ s a, GoesOn (g a) s (f s a)) :
    ∀ (xs : List α) (s : TaskSet κ ξ), GoesOn (xs.flatMap g) s (xs.foldl f s) := by
  intro xs
  induction xs with
  | nil => exact GoesOn.refl
  | cons a xs ih =>
    intro s
    rw [List.foldl_cons, List.flatMap_cons]
    exact (hf s a).trans (ih _)

/-- What a fold stops at one of its turns is stopped when it is over. -/
theorem halted_foldl {l : α → Option LoopId} (hf : ∀ s a, GoesOn (g a) s (f s a))
    (hl : ∀ s a, (f s a).IsHalted (l a)) :
    ∀ (xs : List α) (s : TaskSet κ ξ), ∀ a ∈ xs, (xs.foldl f s).IsHalted (l a) := by
  intro xs
  induction xs with
  | nil => intro s a ha; simp at ha
  | cons b xs ih =>
    intro s a ha
    rw [List.foldl_cons]
    rcases List.mem_cons.1 ha with rfl | ha
    · exact (goesOn_foldl hf xs _).halted (hl s a)
    · exact ih _ a ha

theorem goesOn_foldl_silent (hf : ∀ s a, GoesOn [] s (f s a)) (xs : List α)
    (s : TaskSet κ ξ) : GoesOn [] s (xs.foldl f s) := by
  have hnil : xs.flatMap (fun _ => ([] : List TaskRef)) = [] :=
    List.flatMap_eq_nil_iff.2 fun _ _ => rfl
  rw [← hnil]
  exact goesOn_foldl hf xs s

end Folds

theorem goesOn_wakeDraining (s : TaskSet κ ξ) : GoesOn [] s s.wakeDraining := by
  unfold wakeDraining
  split
  · exact goesOn_foldl_silent (fun _ _ => goesOn_notify rfl) _ s
  · exact .refl s

/-! ## Loops -/

theorem goesOn_setLoop {l : LoopId} {f : Loop → Loop}
    (hf : ∀ x ∈ s.loops, x.id = l → (f x).Follows x) : GoesOn [] s (s.setLoop l f) := by
  have hstep : ∀ x ∈ s.loops, (if x.id == l then f x else x).Follows x := by
    intro x hx
    split
    · rename_i hid
      exact hf x hx (by simpa using hid)
    · exact .refl x
  refine ⟨rfl, rfl, rfl, rfl, rfl, by simp [tornDown, setLoop], ?_, ?_, fun _ _ h => h, Or.inl⟩
  · intro y hy
    obtain ⟨x, hx, rfl⟩ := List.mem_map.1 hy
    exact ⟨x, hx, hstep x hx⟩
  · intro hd
    have hids : (s.setLoop l f).loops.map (·.id) = s.loops.map (·.id) := by
      simp only [setLoop, List.map_map]
      exact List.map_congr_left fun x hx => (hstep x hx).id
    rwa [hids]

theorem goesOn_cancelLoop (s : TaskSet κ ξ) (l : LoopId) : GoesOn [] s (s.cancelLoop l) := by
  unfold cancelLoop
  split
  · refine (goesOn_setLoop fun x _ _ => ?_).then (goesOn_notify rfl)
    exact ⟨rfl, rfl, rfl, fun h => by simp [Loop.isLive] at h⟩
  · exact .refl s

theorem halted_cancelLoop (s : TaskSet κ ξ) (l : LoopId) :
    (s.cancelLoop l).IsHalted (some l) := by
  intro y hy hid
  obtain rfl := Option.some.inj hid
  unfold cancelLoop at hy
  split at hy
  · obtain ⟨x, _, hxy⟩ := List.mem_map.1 hy
    split at hxy
    · rw [← hxy]
      simp [Loop.isLive]
    · rename_i hne
      simp [hxy] at hne
  · rename_i hnone
    have hc : y.cancelled = true := by
      by_contra hc
      exact hnone (List.any_eq_true.2 ⟨y, hy, by simp [hc]⟩)
    simp [Loop.isLive, hc]

theorem mem_of_mem_swapRemove {α : Type} {xs : List α} {i : Nat} {x : α}
    (h : x ∈ swapRemove xs i) : x ∈ xs := by
  unfold swapRemove at h
  split at h
  · simp at h
  · rename_i z hz
    rcases List.mem_or_eq_of_mem_set (List.dropLast_subset _ h) with h | rfl
    · exact h
    · exact List.mem_of_getLast? hz

/-- Only the element at that place goes. -/
theorem mem_swapRemove {α : Type} {xs : List α} {i : Nat} {x : α} (hx : x ∈ xs)
    (hi : i < xs.length) (hne : xs[i] ≠ x) : x ∈ swapRemove xs i := by
  rcases List.eq_nil_or_concat xs with rfl | ⟨ys, z, rfl⟩
  · exact absurd hx List.not_mem_nil
  · simp only [List.concat_eq_append] at hx hi hne ⊢
    have hlast : (ys ++ [z]).getLast? = some z := by simp
    simp only [swapRemove, hlast]
    rcases Nat.lt_or_ge i ys.length with hlt | hge
    · rw [List.set_append_left _ _ hlt, List.dropLast_concat]
      rw [List.getElem_append_left hlt] at hne
      rcases List.mem_append.1 hx with hx | hx
      · obtain ⟨j, hj, rfl⟩ := List.mem_iff_getElem.1 hx
        have hij : i ≠ j := fun h => hne (by simp [h])
        exact List.mem_iff_getElem.2 ⟨j, by simpa using hj, by simp [hij]⟩
      · obtain rfl := List.mem_singleton.1 hx
        exact List.mem_set hlt x
    · obtain rfl : i = ys.length := by
        simp at hi
        omega
      rw [List.getElem_concat_length rfl] at hne
      have hset : (ys ++ [z]).set ys.length z = ys ++ [z] := by simp
      rw [hset, List.dropLast_concat]
      rcases List.mem_append.1 hx with hx | hx
      · exact hx
      · exact absurd (List.mem_singleton.1 hx).symm hne

theorem nodup_map_swapRemove {α β : Type} (f : α → β) {xs : List α} (i : Nat)
    (h : (xs.map f).Nodup) : ((swapRemove xs i).map f).Nodup := by
  rcases List.eq_nil_or_concat xs with rfl | ⟨ys, z, rfl⟩
  · simp [swapRemove]
  · rw [List.concat_eq_append] at h ⊢
    have hlast : (ys ++ [z]).getLast? = some z := by simp
    rw [List.map_append, List.map_singleton] at h
    have hz : f z ∉ ys.map f := fun hz => (List.nodup_append.1 h).2.2 _ hz _ (by simp) rfl
    simp only [swapRemove, hlast]
    rcases Nat.lt_or_ge i ys.length with hi | hi
    · rw [List.set_append_left _ _ hi, List.dropLast_concat, List.map_set]
      exact ((List.nodup_append.1 h).1).set hz
    · have hset : (ys ++ [z]).set i z = ys ++ [z] := by
        rw [List.set_append_right _ _ hi]
        cases i - ys.length <;> rfl
      rw [hset, List.dropLast_concat]
      exact (List.nodup_append.1 h).1

theorem goesOn_forgetLoop (s : TaskSet κ ξ) (l : LoopId) : GoesOn [] s (s.forgetLoop l) := by
  unfold forgetLoop
  split
  · exact .refl s
  · split
    · exact ⟨rfl, rfl, rfl, rfl, rfl, by simp [tornDown],
        fun y hy => ⟨y, mem_of_mem_swapRemove hy, .refl y⟩, nodup_map_swapRemove _ _,
        fun _ _ h => h, Or.inl⟩
    · exact .refl s

theorem goesOn_forgetRoot (s : TaskSet κ ξ) : GoesOn [] s s.forgetRoot := by
  unfold forgetRoot
  split
  · rename_i hgone
    refine ⟨rfl, rfl, rfl, rfl, rfl, by simp [tornDown, notify, SetNotice.tornDown?],
      fun y hy => ⟨y, hy, .refl y⟩, fun h => h, fun hl hd _ => ?_, Or.inl⟩
    simp [hl, hd] at hgone
  · exact .refl s

theorem goesOn_cancelRoot (s : TaskSet κ ξ) : GoesOn [] s s.cancelRoot := by
  unfold cancelRoot
  split
  · exact .refl s
  · have hcancel : ∀ (s : TaskSet κ ξ) (x : Loop), GoesOn [] s (s.cancelLoop x.id) :=
      fun s x => goesOn_cancelLoop s x.id
    have hgo := goesOn_foldl_silent hcancel s.loops.reverse s
    refine ⟨hgo.lifecycle, hgo.dropped, hgo.registry, hgo.calls, hgo.nextLoop, hgo.tornDown,
      hgo.loops, hgo.distinct, hgo.rooted, fun _ => Or.inr fun y hy => ?_⟩
    obtain ⟨x, hx, hyx⟩ := hgo.loops y hy
    exact halted_foldl (l := fun x : Loop => some x.id) (g := fun _ => []) hcancel
      (fun s x => halted_cancelLoop s x.id) _ s x (List.mem_reverse.2 hx) y hy
      (congrArg some hyx.id.symm)

/-- The root token is cancelled if the set has one. -/
theorem goesOn_cancelRoot_if (s : TaskSet κ ξ) :
    GoesOn [] s (if s.lifecycle == .started then s.cancelRoot else s) := by
  split
  · exact goesOn_cancelRoot s
  · exact .refl s

/-- No loop is left when a root token that exists has been cancelled. -/
theorem rootCancelled_cancelRoot (h : s.isRooted = true) : s.cancelRoot.rootCancelled = true := by
  unfold cancelRoot
  split
  · rename_i hno
    simpa [h] using hno
  · rfl

/-! ## Leaving -/

theorem goesOn_retire (s : TaskSet κ ξ) (r : Registration κ ξ) (why : Departure) :
    GoesOn [r.task] s (s.retire r why) := by
  unfold retire
  split
  · exact goesOn_tearDown s r why
  · exact ((goesOn_cancelLoop s _).trans (goesOn_tearDown _ r why)).then (goesOn_forgetLoop _ _)

theorem halted_retire (s : TaskSet κ ξ) (r : Registration κ ξ) (why : Departure) :
    (s.retire r why).IsHalted r.loop := by
  unfold retire
  split
  · rename_i hnone
    intro y _ hid
    rw [hnone] at hid
    contradiction
  · rename_i l hl
    rw [hl]
    exact ((goesOn_tearDown _ r why).then (goesOn_forgetLoop _ l)).halted (halted_cancelLoop s l)

theorem goesOn_endLoop (s : TaskSet κ ξ) (l : LoopId) : GoesOn [] s (s.endLoop l) := by
  have hset : GoesOn [] s (s.setLoop l fun x => { x with phase := .ended }) :=
    goesOn_setLoop fun x _ _ =>
      ⟨rfl, rfl, rfl, fun h => by simp [Loop.isLive, Loop.isPolling] at h⟩
  exact ((hset.then (goesOn_wakeDraining _)).then (goesOn_forgetLoop _ l)).then
    (goesOn_forgetRoot _)

end TaskSet

end Overseer
