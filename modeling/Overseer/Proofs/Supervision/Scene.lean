import Mathlib.Logic.Function.Basic
import Overseer.Proofs.Supervision.Prompt
import Overseer.Proofs.Supervision.Reporting
import Overseer.Proofs.Supervision.Tokens

/-!
# A set with one task left out

`TaskSet.scene a s` is what a set that has started is to all its tasks but the task `a` : what is
registered of them and in which order, whose `init` is under way on behalf of a late registration,
which of their loops poll and how far these have come, and whose `destroy` was called. Loops go by
the ticket of the registration for which they were started. Their numbers depend on how many loops
there were before, and their order on which of them have been forgotten, and both of that may be
due to `a`.

A loop that has failed or has come to its end is not part of the scene, nor are the locks, as
nobody holds the lifecycle lock of such a set between two events (`Prompt`). There is an equation
for each function of the set that an event is made of.
-/

namespace Overseer

variable {κ ξ : Type}

/-- The loop under no number of its own. -/
def Loop.unnumbered (x : Loop) : Loop := { x with id := 0 }

/-- The loop with its exit token cancelled. -/
def Loop.cancel (x : Loop) : Loop := { x with cancelled := true }

/-- Does the loop poll, and another task than `a`? -/
def Loop.isSeen (a : TaskId) (x : Loop) : Bool := x.task.id != a && x.isPolling

/-- The registration without the number of its loop. -/
def Registration.unlooped (r : Registration κ ξ) : Registration κ ξ := { r with loop := none }

/-- The loop that starts for a registration, under no number. -/
def Registration.fresh (r : Registration κ ξ) (cancelled : Bool) : Loop :=
  { id := 0, ticket := r.ticket, task := r.task, period := r.options.period,
    cancelled := cancelled }

/-- The late registration whose task is being initialized. -/
def CallPhase.arriving? : CallPhase κ ξ → Option (Registration κ ξ)
  | .initializing r => some r
  | _ => none

/-- What a set that has started is to all its tasks but one. -/
structure Scene (κ ξ : Type) where
  pool : Option PoolId
  rootCancelled : Bool
  /-- In the order in which tasks are visited. -/
  registry : Registry κ ξ
  /-- The late registrations whose tasks are being initialized. -/
  arriving : CallId → Option (Registration κ ξ)
  /-- The loops that poll, by their tickets. -/
  loops : CallId → Option Loop
  /-- Whose `destroy` was called, oldest first. -/
  left : List TaskRef

/-! ## Registries -/

namespace Registry

variable {a id : TaskId} {r : Registration κ ξ} {reg : Registry κ ξ}

/-- What is registered of other tasks than `a`. -/
def others (a : TaskId) (reg : Registry κ ξ) : Registry κ ξ :=
  List.map Registration.unlooped (reg.remove a)

theorem others_remove (a id : TaskId) (reg : Registry κ ξ) :
    (reg.remove id).others a = (reg.others a).remove id := by
  simp only [others, remove, List.filter_map, List.filter_filter]
  refine congrArg _ (List.filter_congr fun r _ => ?_)
  exact Bool.and_comm _ _

theorem others_remove_self (a : TaskId) (reg : Registry κ ξ) :
    (reg.remove a).others a = reg.others a := by
  simp [others, remove, List.filter_filter]

theorem has_others (h : id ≠ a) : (reg.others a).has id = reg.has id := by
  simp only [others, has, remove, List.any_map, List.any_filter]
  congr 1
  funext r
  by_cases hid : r.task.id = id <;> simp [Registration.unlooped, hid, h]

theorem lookup?_others (h : id ≠ a) :
    (reg.others a).lookup? id = (reg.lookup? id).map Registration.unlooped := by
  simp only [others, lookup?, remove, List.find?_map, List.find?_filter]
  congr 2
  funext r
  by_cases hid : r.task.id = id <;> simp [Registration.unlooped, hid, h]

/-- A position is taken by another task, or by `a`. -/
theorem hasOrder_eq (a : TaskId) (reg : Registry κ ξ) (order : Nat) : reg.hasOrder order =
    ((reg.others a).hasOrder order ||
      List.any reg fun r => r.task.id == a && r.order == some order) := by
  simp only [others, hasOrder, remove, List.any_map, List.any_filter]
  induction reg with
  | nil => rfl
  | cons r reg ih =>
    simp only [List.any_cons, ih, Function.comp, Registration.unlooped]
    by_cases hid : r.task.id = a
    · simp [hid, Bool.or_left_comm]
    · simp [beq_eq_false_iff_ne.2 hid, bne, Bool.or_assoc]

theorem insert_cons_of_lt {x : Registration κ ξ} (h : r.sortKey < x.sortKey) :
    insert r (x :: reg) = r :: x :: reg := if_pos h

theorem insert_cons_of_le {x : Registration κ ξ} (h : ¬r.sortKey < x.sortKey) :
    insert r (x :: reg) = x :: insert r reg := if_neg h

theorem insert_of_lt (h : ∀ x ∈ reg, r.sortKey < x.sortKey) : insert r reg = r :: reg := by
  cases reg with
  | nil => rfl
  | cons x reg => exact insert_cons_of_lt (h x List.mem_cons_self)

/-- A registration goes to the same place among fewer. -/
theorem filter_insert (h : reg.IsSorted) (p : Registration κ ξ → Bool) :
    List.filter p (insert r reg) =
      if p r then insert r (List.filter p reg) else List.filter p reg := by
  induction reg with
  | nil => cases hp : p r <;> simp [insert, hp]
  | cons x reg ih =>
    obtain ⟨hx, hreg⟩ := List.pairwise_cons.1 h
    by_cases hlt : r.sortKey < x.sortKey
    · have hall : ∀ y ∈ List.filter p (x :: reg), r.sortKey < y.sortKey := by
        intro y hy
        rcases List.mem_cons.1 (List.mem_of_mem_filter hy) with rfl | hy
        · exact hlt
        · exact Nat.lt_of_lt_of_le hlt (hx y hy)
      rw [insert_of_lt hall, insert_cons_of_lt hlt, List.filter_cons]
    · rw [insert_cons_of_le hlt, List.filter_cons, List.filter_cons, ih hreg]
      cases p x with
      | false => rfl
      | true =>
        simp only [if_true, insert_cons_of_le hlt]
        split <;> rfl

theorem map_insert {f : Registration κ ξ → Registration κ ξ}
    (hf : ∀ x, (f x).sortKey = x.sortKey) :
    List.map f (insert r reg) = insert (f r) (List.map f reg) := by
  induction reg with
  | nil => rfl
  | cons x reg ih =>
    by_cases hlt : r.sortKey < x.sortKey
    · rw [insert_cons_of_lt hlt, List.map_cons, List.map_cons, insert_cons_of_lt]
      rwa [hf, hf]
    · rw [insert_cons_of_le hlt, List.map_cons, List.map_cons, insert_cons_of_le, ih]
      rwa [hf, hf]

/-- What comes in comes in among the others. -/
theorem others_insert (h : reg.IsSorted) (a : TaskId) (r : Registration κ ξ) :
    (reg.insert r).others a =
      if r.task.id = a then reg.others a else (reg.others a).insert r.unlooped := by
  unfold others remove
  rw [filter_insert h]
  by_cases hid : r.task.id = a
  · simp [hid]
  · simp only [bne_iff_ne, ne_eq, hid, not_false_eq_true, if_true, if_false]
    exact map_insert fun _ => rfl

/-- A change of what has just come in. -/
theorem modify_insert {f : Registration κ ξ → Registration κ ξ}
    (hf : ∀ x, (f x).sortKey = x.sortKey) (hnew : reg.has r.task.id = false) :
    (reg.insert r).modify r.task.id f = reg.insert (f r) := by
  have hsame : reg.modify r.task.id f = reg := by
    refine (List.map_congr_left fun x hx => ?_).trans (List.map_id' reg)
    simp [has_eq_false.1 hnew x hx]
  have hkeys : ∀ x, (if x.task.id == r.task.id then f x else x).sortKey = x.sortKey := fun x => by
    split
    · exact hf x
    · rfl
  rw [modify, map_insert hkeys, if_pos (beq_self_eq_true _)]
  exact congrArg _ hsame

end Registry

namespace TaskSet

variable {a : TaskId} {s t : TaskSet κ ξ} {c : CallId} {k : CallId} {x : Loop}
  {r : Registration κ ξ} {torn : List TaskRef}

/-- The late registration of another task than `a` that the call is about to bring. -/
def arriving (a : TaskId) (s : TaskSet κ ξ) (c : CallId) : Option (Registration κ ξ) :=
  ((s.call? c).bind (·.phase.arriving?)).filter (·.task.id != a)

/-- The loop of that ticket, if it polls another task than `a`. -/
def seen (a : TaskId) (s : TaskSet κ ξ) (k : CallId) : Option Loop :=
  s.loops.find? fun x => x.ticket == k && x.isSeen a

/-- What the set is to all its tasks but `a`. -/
def scene (a : TaskId) (s : TaskSet κ ξ) : Scene κ ξ where
  pool := s.pool
  rootCancelled := s.rootCancelled
  registry := s.registry.others a
  arriving := s.arriving a
  loops k := (s.seen a k).map Loop.unnumbered
  left := s.tornDown.filter (·.id != a)

/-! ## Notices, locks and calls -/

/-- Of notices and locks a scene has only who was torn down. -/
theorem Alike.scene_append (h : Alike torn s t) (a : TaskId) : t.scene a =
    { s.scene a with left := (s.scene a).left ++ torn.filter (·.id != a) } := by
  have hsame : t.scene a = { ({ s with
      lifecycleLock := t.lifecycleLock, startupLock := t.startupLock,
      notices := t.notices } : TaskSet κ ξ).scene a with
        left := t.tornDown.filter (·.id != a) } := by
    rw [← h.same]
    rfl
  rw [hsame, h.tornDown, List.filter_append]
  rfl

theorem Alike.scene_eq (h : Alike [] s t) (a : TaskId) : t.scene a = s.scene a := by
  rw [h.scene_append a, List.filter_nil, List.append_nil]

theorem call?_without (s : TaskSet κ ξ) (c d : CallId) :
    (s.without c).call? d = if d = c then none else s.call? d := by
  unfold call? without
  rw [List.find?_filter]
  split
  · rename_i heq
    subst heq
    exact List.find?_eq_none.2 fun x _ => by simp
  · rename_i hne
    congr 1
    funext x
    by_cases hx : x.id = d
    · simp [hx, hne]
    · simp [hx]

theorem scene_without (s : TaskSet κ ξ) (a : TaskId) (c : CallId) : (s.without c).scene a =
    { s.scene a with arriving := Function.update (s.arriving a) c none } := by
  have harriving : (s.without c).arriving a = Function.update (s.arriving a) c none := by
    funext d
    by_cases hd : d = c
    · simp [arriving, call?_without, hd]
    · simp [arriving, call?_without, hd]
  rw [← harriving]
  rfl

theorem scene_setPhase {p : CallPhase κ ξ} (hc : ⟨c, p⟩ ∈ s.calls) (q : CallPhase κ ξ)
    (a : TaskId) : (s.setPhase c q).scene a = { s.scene a with
      arriving := Function.update (s.arriving a) c (q.arriving?.filter (·.task.id != a)) } := by
  have harriving : (s.setPhase c q).arriving a =
      Function.update (s.arriving a) c (q.arriving?.filter (·.task.id != a)) := by
    funext d
    by_cases hd : d = c
    · subst hd
      simp [arriving, call?_setPhase hc q]
    · have hother : (s.setPhase c q).call? d = s.call? d := by
        unfold call? setPhase
        rw [List.find?_map]
        have hid : (fun x : Call κ ξ => x.id == d) ∘
            (fun x => if x.id == c then { x with phase := q } else x) = (·.id == d) := by
          funext x
          simp only [Function.comp]
          split <;> rfl
        rw [hid]
        cases hx : s.calls.find? (·.id == d) with
        | none => rfl
        | some x =>
          have hxd : x.id = d := by simpa using List.find?_some hx
          simp [hxd, hd]
      simp [arriving, hother, hd]
  rw [← harriving]
  rfl

theorem scene_addCall (hnew : (s.call? c).isSome = false) {p : CallPhase κ ξ}
    (hp : p.arriving? = none) (a : TaskId) : (s.addCall c p).scene a = s.scene a := by
  have harriving : (s.addCall c p).arriving a = s.arriving a := by
    funext d
    by_cases hd : d = c
    · subst hd
      have hnone : s.call? d = none := by simpa using hnew
      simp [arriving, call?_of_mem hnew, hnone, hp]
    · have hother : (s.addCall c p).call? d = s.call? d := by
        simp [call?, addCall, List.find?_append, Ne.symm hd]
      simp [arriving, hother]
  unfold scene
  rw [harriving]
  rfl

/-- A call that is over is not about to bring anything. -/
theorem scene_endCall (s : TaskSet κ ξ) (a : TaskId) (c : CallId) : (s.endCall c).scene a =
    { s.scene a with arriving := Function.update (s.arriving a) c none } := by
  rw [(alike_endCall s c).scene_eq, scene_without]

/-! ## Loops -/

/-- No two loops were started for one registration. -/
def Sole (s : TaskSet κ ξ) : Prop := (s.loops.map (·.ticket)).Nodup

theorem seen_eq_some (hn : s.Sole) :
    s.seen a k = some x ↔ x ∈ s.loops ∧ x.ticket = k ∧ x.isSeen a = true := by
  constructor
  · intro h
    have hx := List.find?_some h
    simp only [Bool.and_eq_true, beq_iff_eq] at hx
    exact ⟨List.mem_of_find?_eq_some h, hx⟩
  · rintro ⟨hx, rfl, hseen⟩
    cases h : s.seen a x.ticket with
    | none => simpa [hseen] using List.find?_eq_none.1 h x hx
    | some y =>
      have hy := List.find?_some h
      simp only [Bool.and_eq_true, beq_iff_eq] at hy
      rw [List.inj_on_of_nodup_map hn (List.mem_of_find?_eq_some h) hx hy.1]

theorem seen_of_mem (hn : s.Sole) (hx : x ∈ s.loops) (a : TaskId) :
    s.seen a x.ticket = if x.isSeen a then some x else none := by
  split
  · rename_i hseen
    exact (seen_eq_some hn).2 ⟨hx, rfl, hseen⟩
  · rename_i hseen
    cases h : s.seen a x.ticket with
    | none => rfl
    | some y =>
      obtain ⟨hy, hk, hyseen⟩ := (seen_eq_some hn).1 h
      obtain rfl := List.inj_on_of_nodup_map hn hy hx hk
      exact absurd hyseen hseen

theorem scene_loops_of_mem (hn : s.Sole) (hx : x ∈ s.loops) (a : TaskId) :
    (s.scene a).loops x.ticket = if x.isSeen a then some x.unnumbered else none := by
  show (s.seen a x.ticket).map Loop.unnumbered = _
  rw [seen_of_mem hn hx]
  split <;> rfl

theorem seen_setLoop (hn : s.Sole) (hids : (s.loops.map (·.id)).Nodup) (hx : x ∈ s.loops)
    {f : Loop → Loop} (hf : (f x).ticket = x.ticket) (a : TaskId) : (s.setLoop x.id f).seen a =
      Function.update (s.seen a) x.ticket (if (f x).isSeen a then some (f x) else none) := by
  obtain ⟨ys, zs, heq⟩ := List.append_of_mem hx
  have hne : ∀ y ∈ ys ++ zs, y.id ≠ x.id ∧ y.ticket ≠ x.ticket := by
    unfold Sole at hn
    rw [heq, List.map_append, List.map_cons, List.nodup_middle] at hn hids
    rw [← List.map_append] at hn hids
    exact fun y hy => ⟨fun h => (List.nodup_cons.1 hids).1 (h ▸ List.mem_map_of_mem hy),
      fun h => (List.nodup_cons.1 hn).1 (h ▸ List.mem_map_of_mem (f := (·.ticket)) hy)⟩
  have hkept : ∀ y ∈ ys ++ zs, (if y.id == x.id then f y else y) = y := fun y hy => by
    simp [(hne y hy).1]
  have hloops : (s.setLoop x.id f).loops = ys ++ f x :: zs := by
    show s.loops.map _ = _
    rw [heq, List.map_append, List.map_cons, if_pos (beq_self_eq_true _)]
    congr 1
    · exact (List.map_congr_left fun y hy => hkept y (List.mem_append_left _ hy)).trans
        (List.map_id' ys)
    · congr 1
      exact (List.map_congr_left fun y hy => hkept y (List.mem_append_right _ hy)).trans
        (List.map_id' zs)
  funext k
  unfold seen
  rw [hloops, heq]
  by_cases hk : k = x.ticket
  · subst hk
    have hnone : ∀ ws : List Loop, (∀ y ∈ ws, y ∈ ys ++ zs) →
        ws.find? (fun y => y.ticket == x.ticket && y.isSeen a) = none := fun ws hws =>
      List.find?_eq_none.2 fun y hy => by simp [(hne y (hws y hy)).2]
    rw [Function.update_self, List.find?_append, List.find?_cons,
      hnone ys fun y hy => List.mem_append_left _ hy,
      hnone zs fun y hy => List.mem_append_right _ hy]
    cases (f x).isSeen a <;> simp [hf]
  · rw [Function.update_of_ne hk]
    simp [List.find?_append, hf, Ne.symm hk]

/-- A loop goes on. -/
theorem scene_setLoop (hn : s.Sole) (hids : (s.loops.map (·.id)).Nodup) (hx : x ∈ s.loops)
    {f : Loop → Loop} (hf : (f x).ticket = x.ticket) (a : TaskId) :
    (s.setLoop x.id f).scene a = { s.scene a with
      loops := Function.update (s.scene a).loops x.ticket
        (if (f x).isSeen a then some (f x).unnumbered else none) } := by
  have hloops : (fun k => ((s.setLoop x.id f).seen a k).map Loop.unnumbered) =
      Function.update (s.scene a).loops x.ticket
        (if (f x).isSeen a then some (f x).unnumbered else none) := by
    rw [seen_setLoop hn hids hx hf a]
    refine (Function.comp_update (Option.map Loop.unnumbered) _ _ _).trans ?_
    congr 1
    split <;> rfl
  rw [← hloops]
  rfl

/-- What is not seen of a loop changes nothing. -/
theorem scene_setLoop_unseen (hn : s.Sole) (hids : (s.loops.map (·.id)).Nodup) (hx : x ∈ s.loops)
    {f : Loop → Loop} (hf : (f x).ticket = x.ticket) (hseen : x.isSeen a = false)
    (hfseen : (f x).isSeen a = false) : (s.setLoop x.id f).scene a = s.scene a := by
  have hnone : (s.scene a).loops x.ticket = none := by
    rw [scene_loops_of_mem hn hx, if_neg (by simp [hseen])]
  rw [scene_setLoop hn hids hx hf, if_neg (by simp [hfseen]), ← hnone, Function.update_eq_self]

theorem Sole.setLoop (hn : s.Sole) {l : LoopId} {f : Loop → Loop}
    (hf : ∀ x, (f x).ticket = x.ticket) : (s.setLoop l f).Sole := by
  have hsame : (s.setLoop l f).loops.map (·.ticket) = s.loops.map (·.ticket) := by
    simp only [TaskSet.setLoop, List.map_map]
    refine List.map_congr_left fun x _ => ?_
    simp only [Function.comp]
    split
    · exact hf x
    · rfl
  rwa [Sole, hsame]

/-- Only a loop that has come to its end is forgotten. -/
theorem forgetLoop_cases (s : TaskSet κ ξ) (l : LoopId) : s.forgetLoop l = s ∨
    ∃ (i : Nat) (hi : i < s.loops.length), s.loops[i].phase = .ended ∧
      s.forgetLoop l = { s with loops := swapRemove s.loops i } := by
  unfold forgetLoop
  cases hl : s.loop? l with
  | none => exact .inl rfl
  | some x =>
    dsimp only
    split
    · rename_i hended
      simp only [Bool.and_eq_true, beq_iff_eq] at hended
      obtain ⟨hx, hid⟩ := loop?_eq_some hl
      have hi : s.loops.findIdx (·.id == l) < s.loops.length :=
        List.findIdx_lt_length_of_exists ⟨x, hx, by simp [hid]⟩
      refine .inr ⟨_, hi, ?_, rfl⟩
      unfold loop? at hl
      rw [List.find?_eq_getElem?_findIdx, List.getElem?_eq_getElem hi] at hl
      rw [Option.some.inj hl]
      exact hended.1
    · exact .inl rfl

theorem mem_forgetLoop (hx : x ∈ s.loops) (hphase : x.phase ≠ .ended) (l : LoopId) :
    x ∈ (s.forgetLoop l).loops := by
  rcases forgetLoop_cases s l with heq | ⟨i, hi, hended, heq⟩
  · rwa [heq]
  · rw [heq]
    exact mem_swapRemove hx hi fun h => hphase (h ▸ hended)

theorem Sole.forgetLoop (hn : s.Sole) (l : LoopId) : (s.forgetLoop l).Sole := by
  rcases forgetLoop_cases s l with heq | ⟨i, -, -, heq⟩
  · rwa [heq]
  · rw [heq]
    exact nodup_map_swapRemove _ _ hn

theorem scene_forgetLoop (hn : s.Sole) (l : LoopId) (a : TaskId) :
    (s.forgetLoop l).scene a = s.scene a := by
  rcases forgetLoop_cases s l with heq | ⟨i, hi, hended, heq⟩
  · rw [heq]
  · have hn' := hn.forgetLoop l
    have hseen : (s.forgetLoop l).seen a = s.seen a := by
      funext k
      refine Option.ext fun y => ?_
      rw [seen_eq_some hn, seen_eq_some hn', heq]
      refine ⟨fun ⟨hy, h⟩ => ⟨mem_of_mem_swapRemove hy, h⟩, fun ⟨hy, h⟩ => ⟨?_, h⟩⟩
      refine mem_swapRemove hy hi fun hrefl => ?_
      rw [hrefl] at hended
      simp [Loop.isSeen, Loop.isPolling, hended] at h
    unfold scene
    rw [hseen, heq]
    rfl

theorem alike_foldl {α : Type} {f : TaskSet κ ξ → α → TaskSet κ ξ} (hf : ∀ s a, Alike [] s (f s a))
    (xs : List α) (s : TaskSet κ ξ) : Alike [] s (xs.foldl f s) := by
  induction xs generalizing s with
  | nil => exact .refl s
  | cons a xs ih => exact (hf s a).then (ih _)

theorem alike_wakeDraining (s : TaskSet κ ξ) : Alike [] s s.wakeDraining := by
  unfold wakeDraining
  split
  · exact alike_foldl (fun _ _ => alike_notify rfl) _ s
  · exact .refl s

theorem scene_forgetRoot (s : TaskSet κ ξ) (a : TaskId) : s.forgetRoot.scene a = s.scene a := by
  unfold forgetRoot
  split
  · exact (alike_notify rfl).scene_eq a
  · rfl

/-- A loop that comes to its end is not seen any longer. -/
theorem scene_endLoop (hn : s.Sole) (hids : (s.loops.map (·.id)).Nodup) (hx : x ∈ s.loops)
    (a : TaskId) : (s.endLoop x.id).scene a = { s.scene a with
      loops := Function.update (s.scene a).loops x.ticket none } := by
  have hended := scene_setLoop hn hids hx (f := fun y => { y with phase := .ended }) rfl a
  have hn' : Sole (s.setLoop x.id fun y => { y with phase := .ended }).wakeDraining := by
    rw [Sole, loops_wakeDraining]
    exact hn.setLoop fun _ => rfl
  unfold endLoop
  rw [scene_forgetRoot, scene_forgetLoop hn', (alike_wakeDraining _).scene_eq, hended]
  simp [Loop.isSeen, Loop.isPolling]

theorem scene_endLoop_unseen (hn : s.Sole) (hids : (s.loops.map (·.id)).Nodup) (hx : x ∈ s.loops)
    (hseen : x.isSeen a = false) : (s.endLoop x.id).scene a = s.scene a := by
  have hnone : (s.scene a).loops x.ticket = none := by
    rw [scene_loops_of_mem hn hx, if_neg (by simp [hseen])]
  rw [scene_endLoop hn hids hx, ← hnone, Function.update_eq_self]

theorem scene_congr (hp : t.pool = s.pool) (hc : t.calls = s.calls)
    (ht : t.tornDown = s.tornDown) (a : TaskId) : t.scene a = { s.scene a with
      rootCancelled := t.rootCancelled, registry := t.registry.others a
      loops := (t.scene a).loops } := by
  unfold scene arriving call?
  rw [hp, hc, ht]

theorem loops_cancelLoop (s : TaskSet κ ξ) (l : LoopId) :
    (s.cancelLoop l).loops = s.loops.map fun x => if x.id == l then x.cancel else x := by
  unfold cancelLoop
  split
  · rfl
  · rename_i hall
    refine ((List.map_congr_left fun x hx => ?_).trans (List.map_id' _)).symm
    split
    · rename_i hid
      have hc : x.cancelled = true := by
        by_contra hc
        exact hall (List.any_eq_true.2 ⟨x, hx, by simp [hid, hc]⟩)
      simp [Loop.cancel, ← hc]
    · rfl

/-- The loop whose exit token is cancelled is seen to be. -/
theorem scene_cancelLoop (hn : s.Sole) (hids : (s.loops.map (·.id)).Nodup) (hx : x ∈ s.loops)
    (a : TaskId) : (s.cancelLoop x.id).scene a = { s.scene a with
      loops := Function.update (s.scene a).loops x.ticket
        (((s.scene a).loops x.ticket).map Loop.cancel) } := by
  have hgo := goesOn_cancelLoop s x.id
  have hroot : (s.cancelLoop x.id).rootCancelled = s.rootCancelled := by
    unfold cancelLoop
    split <;> rfl
  have hseen : (s.cancelLoop x.id).seen a = (s.setLoop x.id Loop.cancel).seen a := by
    unfold seen
    rw [loops_cancelLoop]
    rfl
  have hloops : ((s.cancelLoop x.id).scene a).loops =
      ((s.setLoop x.id Loop.cancel).scene a).loops := by
    unfold scene
    rw [hseen]
  have hcancel : (if x.cancel.isSeen a then some x.cancel.unnumbered else none) =
      ((s.scene a).loops x.ticket).map Loop.cancel := by
    rw [scene_loops_of_mem hn hx]
    show (if x.isSeen a then _ else _) = _
    split <;> rfl
  rw [scene_congr (hushed_cancelLoop s x.id).pool hgo.calls
    (hgo.tornDown.trans (List.append_nil _)), hroot, hgo.registry, hloops,
    scene_setLoop hn hids hx rfl, hcancel]
  rfl

theorem Sole.cancelLoop (hn : s.Sole) (l : LoopId) : (s.cancelLoop l).Sole := by
  rw [Sole, loops_cancelLoop]
  exact hn.setLoop (l := l) (f := Loop.cancel) fun _ => rfl

/-- Every loop of a set whose root token is cancelled is seen to be. -/
theorem scene_cancelRoot (hrooted : s.isRooted = true) (hopen : s.rootCancelled = false)
    (a : TaskId) : s.cancelRoot.scene a = { s.scene a with
      rootCancelled := true, loops := fun k => ((s.scene a).loops k).map Loop.cancel } := by
  have hfold : ∀ (xs : List Loop) (s : TaskSet κ ξ),
      (xs.foldl (fun s x => s.cancelLoop x.id) s).loops =
        s.loops.map fun y => if xs.any (·.id == y.id) then y.cancel else y := by
    intro xs
    induction xs with
    | nil => exact fun s => (List.map_id' _).symm
    | cons x xs ih =>
      intro s
      rw [List.foldl_cons, ih, loops_cancelLoop, List.map_map]
      refine List.map_congr_left fun y _ => ?_
      by_cases hid : y.id = x.id
      · simp [hid, Loop.cancel]
      · simp [hid, Ne.symm hid]
  have hloops : s.cancelRoot.loops = s.loops.map Loop.cancel := by
    unfold cancelRoot
    rw [if_neg (by simp [hrooted, hopen])]
    show (s.loops.reverse.foldl (fun s x => s.cancelLoop x.id) s).loops = _
    rw [hfold]
    refine List.map_congr_left fun y hy => if_pos ?_
    exact List.any_eq_true.2 ⟨y, List.mem_reverse.2 hy, beq_self_eq_true _⟩
  have hseen : (s.cancelRoot.scene a).loops =
      fun k => ((s.scene a).loops k).map Loop.cancel := by
    funext k
    show ((s.cancelRoot.loops.find? _).map Loop.unnumbered) =
      ((s.loops.find? _).map Loop.unnumbered).map Loop.cancel
    rw [hloops, List.find?_map, Option.map_map, Option.map_map]
    rfl
  have hgo := goesOn_cancelRoot s
  rw [scene_congr (hushed_cancelRoot s).pool hgo.calls (hgo.tornDown.trans (List.append_nil _)),
    rootCancelled_cancelRoot hrooted, hgo.registry, hseen]
  rfl

/-! ## What comes and what goes -/

theorem scene_tearDown (s : TaskSet κ ξ) (r : Registration κ ξ) (why : Departure) (a : TaskId) :
    (s.tearDown r why).scene a = { s.scene a with
      left := (s.scene a).left ++ if r.task.id = a then [] else [r.task] } := by
  rw [(alike_tearDown s r why).scene_append]
  by_cases hid : r.task.id = a <;> simp [hid]

/-- A loop that starts is seen, unless its task is left out. -/
theorem scene_start {y : Loop} (ht : t.loops = s.loops ++ [y])
    (hk : ∀ x ∈ s.loops, x.ticket ≠ y.ticket) (a : TaskId) : (t.scene a).loops =
      Function.update (s.scene a).loops y.ticket
        (if y.isSeen a then some y.unnumbered else none) := by
  funext k
  show (t.loops.find? _).map Loop.unnumbered = _
  rw [ht, List.find?_append]
  by_cases heq : k = y.ticket
  · subst heq
    rw [Function.update_self, List.find?_eq_none.2 fun x hx => by simp [hk x hx]]
    cases hseen : y.isSeen a <;> simp [hseen]
  · have hother : [y].find? (fun x => x.ticket == k && x.isSeen a) = none :=
      List.find?_eq_none.2 fun x hx => by simp [List.mem_singleton.1 hx, Ne.symm heq]
    rw [Function.update_of_ne heq, hother, Option.or_none]
    rfl

/-- What comes into a set that has started is polled at once. -/
theorem scene_enroll (hl : s.lifecycle = .started) (hsorted : s.registry.IsSorted)
    (hids : (List.map (·.task.id) s.registry).Nodup) (hnew : s.registry.has r.task.id = false)
    (hk : ∀ x ∈ s.loops, x.ticket ≠ r.ticket) (a : TaskId) :
    (s.enroll r).scene a = if r.task.id = a then s.scene a else { s.scene a with
      registry := (s.scene a).registry.insert { r with state := .running, loop := none }
      loops := Function.update (s.scene a).loops r.ticket (some (r.fresh s.rootCancelled)) } := by
  have hlookup : (s.registry.insert r).lookup? r.task.id = some r := by
    refine Registry.lookup?_eq_some ?_ (Registry.mem_insert.2 (.inl rfl))
    refine (((Registry.insert_perm r s.registry).map (·.task.id)).nodup_iff).2 ?_
    refine List.nodup_cons.2 ⟨fun hmem => ?_, hids⟩
    obtain ⟨b, hb, hid⟩ := List.mem_map.1 hmem
    exact Registry.has_eq_false.1 hnew b hb hid
  have hstart : s.enroll r = ({ s with registry := s.registry.insert r }.record .debug
      "Registered task." [("task", .text r.task.name)]).startLoop r.task.id :=
    if_pos (beq_iff_eq.2 hl)
  rw [startLoop_eq (r := r) hlookup] at hstart
  have hregistry : (s.enroll r).registry.others a = if r.task.id = a then s.registry.others a
      else (s.registry.others a).insert { r with state := .running, loop := none } := by
    have hkeys : ∀ b : Registration κ ξ, Registration.sortKey
        { b with loop := some s.nextLoop, state := .running } = b.sortKey := fun _ => rfl
    have hmodify := Registry.modify_insert hkeys hnew
    have hreg : (s.enroll r).registry = _ := (congrArg TaskSet.registry hstart).trans hmodify
    rw [hreg, Registry.others_insert hsorted]
    rfl
  have hloops : ((s.enroll r).scene a).loops = if r.task.id = a then (s.scene a).loops
      else Function.update (s.scene a).loops r.ticket (some (r.fresh s.rootCancelled)) := by
    have hnone : (s.scene a).loops r.ticket = none := by
      show (s.loops.find? _).map _ = none
      rw [List.find?_eq_none.2 fun x hx => by simp [hk x hx]]
      rfl
    rw [scene_start (s := s) (y := { r.fresh s.rootCancelled with id := s.nextLoop })
      (congrArg TaskSet.loops hstart) hk]
    by_cases hid : r.task.id = a
    · rw [if_pos hid, if_neg (by simp [Loop.isSeen, Registration.fresh, hid])]
      exact hnone ▸ Function.update_eq_self _ _
    · rw [if_neg hid, if_pos (by simp [Loop.isSeen, Loop.isPolling, Registration.fresh, hid])]
      rfl
  have hpool := congrArg TaskSet.pool hstart
  have hcalls := congrArg TaskSet.calls hstart
  have hroot := congrArg TaskSet.rootCancelled hstart
  have htorn : (s.enroll r).tornDown = s.tornDown := by
    rw [tornDown, hstart]
    simp [tornDown, record, notify, SetNotice.tornDown?]
  rw [scene_congr (s := s) hpool hcalls htorn, hregistry, hloops, hroot]
  split <;> rfl

end TaskSet

end Overseer
