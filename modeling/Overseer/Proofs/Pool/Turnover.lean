import Mathlib.Data.List.Perm.Basic
import Mathlib.Data.List.TakeWhile
import Overseer.Pool.IdleList
import Overseer.Proofs.History

/-!
# What idle lists do

`idleSystem α` is an idle list of either discipline to which everything happens that can: items are
inserted, handed out, expired and reset, in any order, with stamps that never decrease.

`Obeys` is the law of such a list, as a relation between the items before and after. Two things have
to be known for a list to obey it. The items are in the order of their stamps after any history, so
that those which have expired are a front part of the list. And the end of that part may be searched
for by looking at a few items only: `Finds` is any search that leaves out, with each look, items on
one side of the one that it has looked at. In a list that is in order all such searches find the
same place (`Finds.eq`).

`turnover_of_run` puts this together, with the balance of what has come onto the list and what has
left it.
-/

namespace Overseer

variable {α : Type}

/-- Something that is asked of an idle list. -/
inductive IdleEvent (α : Type) where
  | insert (a : α) (now : Nat)
  | detach
  | expire (expiry now : Nat)
  | reset

/-- The answer of an idle list. -/
inductive IdleAnswer (α : Type) where
  | accepted
  /-- There is no room, and the item is handed back. -/
  | full (a : α)
  | detached (a : Option α)
  | removed (gone : List α)
  deriving DecidableEq

namespace IdleEvent

/-- The item that is to go onto the list, with its stamp. -/
def insertion? : IdleEvent α → Option (α × Nat)
  | .insert a now => some (a, now)
  | .detach | .expire _ _ | .reset => none

end IdleEvent

namespace IdleAnswer

def isAccepted : IdleAnswer α → Bool
  | .accepted => true
  | .full _ | .detached _ | .removed _ => false

/-- The items that leave the list. -/
def left : IdleAnswer α → List α
  | .detached a => a.toList
  | .removed gone => gone
  | .accepted | .full _ => []

end IdleAnswer

/-- An event of an idle list with the list that it found. -/
abbrev IdleOccurrence (α : Type) := Occurrence (IdleList α) (IdleEvent α)

namespace IdleList

/-- Do what is asked. -/
def perform (l : IdleList α) : IdleEvent α → IdleList α × IdleAnswer α
  | .insert a now =>
    match l.insert? a now with
    | some l' => (l', .accepted)
    | none => (l, .full a)
  | .detach =>
    match l.detach? with
    | some (a, l') => (l', .detached (some a))
    | none => (l, .detached none)
  | .expire expiry now => ((l.expire expiry now).2, .removed (l.expire expiry now).1)
  | .reset => (l.reset.2, .removed l.reset.1)

/-- The stamps of all insertions so far, those that were refused included. -/
def stamps (h : List (IdleOccurrence α)) : List Nat :=
  h.filterMap fun o => o.event.insertion?.map Prod.snd

/-- Stamps never decrease. -/
def allows (h : List (IdleOccurrence α)) (_ : IdleList α) : IdleEvent α → Bool
  | .insert _ now => (stamps h).all (· ≤ now)
  | .detach | .expire _ _ | .reset => true

end IdleList

/-- An idle list that starts empty, to which events happen. -/
def idleSystem (α : Type) : System (IdleList α) (IdleEvent α) (IdleAnswer α) where
  starts l := ∃ discipline, l = { discipline := discipline }
  happen := IdleList.perform
  allows := IdleList.allows

namespace IdleList

variable {l l' : IdleList α} {h : List (IdleOccurrence α)} {e : IdleEvent α}
  {expiry now : Nat}

/-! ## The law -/

/-- Is a stamp at or before the time at which the expiry began, counted back from now? -/
def isOld (expiry now since : Nat) : Bool := (since : Int) ≤ (now : Int) - expiry

/-- What is to come of an event: the answer, and the items that it leaves, oldest first. -/
inductive Obeys (d : Discipline) :
    List (α × Nat) → IdleEvent α → IdleAnswer α → List (α × Nat) → Prop
  | accepts {items : List (α × Nat)} {a : α} {now : Nat} :
      (∀ capacity, d = .ring capacity → items.length < capacity) →
      Obeys d items (.insert a now) .accepted (items ++ [(a, now)])
  | refuses {items : List (α × Nat)} {a : α} {now capacity : Nat} : d = .ring capacity →
      capacity ≤ items.length → Obeys d items (.insert a now) (.full a) items
  | takesNewest {items : List (α × Nat)} {a : α} {since : Nat} : d = .stack →
      Obeys d (items ++ [(a, since)]) .detach (.detached (some a)) items
  | takesOldest {items : List (α × Nat)} {a : α} {since capacity : Nat} : d = .ring capacity →
      Obeys d ((a, since) :: items) .detach (.detached (some a)) items
  | takesNone : Obeys d [] .detach (.detached none) []
  | expires {items : List (α × Nat)} {expiry now : Nat} :
      Obeys d items (.expire expiry now)
        (.removed ((items.filter fun x => isOld expiry now x.2).map Prod.fst))
        (items.filter fun x => !isOld expiry now x.2)
  | empties {items : List (α × Nat)} :
      Obeys d items .reset (.removed (items.map Prod.fst)) []

/-- The items are in the order of their stamps. -/
def IsOrdered (items : List (α × Nat)) : Prop := items.Pairwise fun x y => x.2 ≤ y.2

theorem expired_eq_isOld (expiry now since : Nat) :
    expired expiry now since = isOld expiry now since := by
  unfold expired isOld
  exact decide_eq_decide.2 (by omega)

/-- In a list that is in order, whoever comes after somebody who has not expired has not either. -/
theorem unexpired_of_sorted {items : List (α × Nat)} (hsorted : IsOrdered items) {i : α × Nat}
    (hi : i ∈ items.dropWhile fun x => expired expiry now x.2) : now < i.2 + expiry := by
  unfold IsOrdered at hsorted
  induction items with
  | nil => cases hi
  | cons a items ih =>
    obtain ⟨hfirst, hrest⟩ := List.pairwise_cons.1 hsorted
    by_cases ha : expired expiry now a.2 = true
    · rw [List.dropWhile_cons, if_pos ha] at hi
      exact ih hrest hi
    · rw [List.dropWhile_cons, if_neg ha] at hi
      have hkept : now < a.2 + expiry := by simpa [expired] using ha
      rcases List.mem_cons.1 hi with rfl | hi
      · exact hkept
      · exact Nat.lt_of_lt_of_le hkept (Nat.add_le_add_right (hfirst i hi) _)

/-- In a list that is in order, the front part that has expired is all that has. -/
theorem split_of_ordered {items : List (α × Nat)} (hsorted : IsOrdered items) (expiry now : Nat) :
    (items.filter fun x => isOld expiry now x.2) =
        items.takeWhile (fun x => expired expiry now x.2) ∧
      (items.filter fun x => !isOld expiry now x.2) =
        items.dropWhile fun x => expired expiry now x.2 := by
  have hfront : ∀ x ∈ items.takeWhile (fun x => expired expiry now x.2),
      isOld expiry now x.2 = true := fun x hx => by
    rw [← expired_eq_isOld]
    exact List.mem_takeWhile_imp (p := fun x : α × Nat => expired expiry now x.2) hx
  have hback : ∀ x ∈ items.dropWhile (fun x => expired expiry now x.2),
      isOld expiry now x.2 = false := fun x hx => by
    rw [← expired_eq_isOld]
    simpa [expired] using unexpired_of_sorted hsorted hx
  have hsplit := List.takeWhile_append_dropWhile (p := fun x => expired expiry now x.2) (l := items)
  constructor
  · nth_rewrite 1 [← hsplit]
    rw [List.filter_append, List.filter_eq_self.2 hfront,
      List.filter_eq_nil_iff.2 fun x hx => by simp [hback x hx], List.append_nil]
  · nth_rewrite 1 [← hsplit]
    rw [List.filter_append, List.filter_eq_nil_iff.2 fun x hx => by simp [hfront x hx],
      List.filter_eq_self.2 fun x hx => by simp [hback x hx], List.nil_append]

/-- A stack hands out its newest item and a ring its oldest. -/
theorem items_of_detach? {a : α} (hd : l.detach? = some (a, l')) : ∃ since,
    (l.discipline = .stack ∧ l.items = l'.items ++ [(a, since)]) ∨
      ∃ capacity, l.discipline = .ring capacity ∧ l.items = (a, since) :: l'.items := by
  unfold detach? inOrder withOrder at hd
  cases hl : l.discipline with
  | stack =>
    simp only [hl] at hd
    split at hd
    · contradiction
    · rename_i b since rest horder
      obtain ⟨rfl, rfl⟩ := Prod.mk.inj (Option.some.inj hd)
      refine ⟨since, .inl ⟨rfl, ?_⟩⟩
      rw [← List.reverse_cons, ← horder, List.reverse_reverse]
  | ring capacity =>
    simp only [hl] at hd
    split at hd
    · contradiction
    · rename_i b since rest horder
      obtain ⟨rfl, rfl⟩ := Prod.mk.inj (Option.some.inj hd)
      exact ⟨since, .inr ⟨capacity, rfl, horder⟩⟩

/-- A list that is in order obeys the law. -/
theorem obeys_of_ordered (hl : IsOrdered l.items) (e : IdleEvent α) :
    Obeys l.discipline l.items e (l.perform e).2 (l.perform e).1.items := by
  cases e with
  | insert a now =>
    cases hi : l.insert? a now with
    | some l' =>
      simp only [perform, hi, items_of_insert? hi]
      refine .accepts fun capacity hd => Nat.lt_of_not_le fun hfull => ?_
      rw [insert?_eq_none_iff.2 ⟨capacity, hd, hfull⟩] at hi
      contradiction
    | none =>
      obtain ⟨capacity, hd, hfull⟩ := insert?_eq_none_iff.1 hi
      simp only [perform, hi]
      exact .refuses hd hfull
  | detach =>
    cases hd : l.detach? with
    | none =>
      simp only [perform, hd, detach?_eq_none_iff.1 hd]
      exact .takesNone
    | some x =>
      obtain ⟨a, l'⟩ := x
      obtain ⟨since, ⟨hstack, hitems⟩ | ⟨capacity, hring, hitems⟩⟩ := items_of_detach? hd
      · simp only [perform, hd, hitems]
        exact .takesNewest hstack
      · simp only [perform, hd, hitems]
        exact .takesOldest hring
  | expire expiry now =>
    obtain ⟨hgone, hkept⟩ := split_of_ordered hl expiry now
    have hlaw : Obeys l.discipline l.items (.expire expiry now) _ _ := .expires
    rw [hgone, hkept] at hlaw
    exact hlaw
  | reset => exact .empties

/-! ## Searching for the end of the expired part -/

/-- A search from `lo` to `hi` for the end of the front part that passes a test. A look at an item
that passes leaves out some of what is up to it, and a look at another some of what is behind it:
how many places a look leaves out, and which item is looked at next, is up to the search. -/
inductive Finds {β : Type} (test : β → Bool) (xs : List β) : Nat → Nat → Nat → Prop
  | done {n : Nat} : Finds test xs n n n
  | after {lo lo' hi i n : Nat} {x : β} : lo ≤ i → i < hi → xs[i]? = some x → test x = true →
      lo ≤ lo' → lo' ≤ i + 1 → Finds test xs lo' hi n → Finds test xs lo hi n
  | before {lo hi hi' i n : Nat} {x : β} : lo ≤ i → i < hi → xs[i]? = some x → test x = false →
      i ≤ hi' → hi' ≤ hi → Finds test xs lo hi' n → Finds test xs lo hi n

/-- All searches in a list whose front part passes and whose rest does not find the same place. -/
theorem Finds.eq {β : Type} {test : β → Bool} {xs : List β} {lo hi k n : Nat}
    (hxs : ∀ i x, xs[i]? = some x → (test x = true ↔ i < k)) (hfinds : Finds test xs lo hi n)
    (hlo : lo ≤ k) (hhi : k ≤ hi) : n = k := by
  induction hfinds with
  | done => omega
  | @after lo lo' hi i n x _ _ hx hpass _ hle _ ih =>
    have hfront : i < k := (hxs i x hx).1 hpass
    exact ih (by omega) hhi
  | @before lo hi hi' i n x _ _ hx hfail hle _ _ ih =>
    have hback : ¬i < k := fun hfront => by simp [(hxs i x hx).2 hfront] at hfail
    exact ih hlo (by omega)

/-- One item after the other is a search as well. -/
theorem exists_finds {β : Type} (test : β → Bool) (xs : List β) {lo hi : Nat} (hlo : lo ≤ hi)
    (hhi : hi ≤ xs.length) : ∃ n, Finds test xs lo hi n := by
  induction hlo using Nat.decreasingInduction with
  | self => exact ⟨hi, .done⟩
  | of_succ i hi' ih =>
    have hx : xs[i]? = some xs[i] := List.getElem?_eq_getElem (by omega)
    cases htest : test xs[i] with
    | true =>
      obtain ⟨n, hn⟩ := ih
      exact ⟨n, .after (Nat.le_refl i) hi' hx htest (Nat.le_succ i) (Nat.le_refl _) hn⟩
    | false =>
      exact ⟨i, .before (Nat.le_refl i) hi' hx htest (Nat.le_refl i) (Nat.le_of_lt hi') .done⟩

/-- In a list that is in order, whoever looks for the end of the expired part finds it. -/
theorem finds_of_ordered {items : List (α × Nat)} (hsorted : IsOrdered items) {n : Nat}
    (hfinds : Finds (fun x => isOld expiry now x.2) items 0 items.length n) :
    (items.filter fun x => isOld expiry now x.2) = items.take n ∧
      (items.filter fun x => !isOld expiry now x.2) = items.drop n := by
  obtain ⟨hgone, hkept⟩ := split_of_ordered hsorted expiry now
  have hsplit : (items.filter fun x => isOld expiry now x.2) ++
      (items.filter fun x => !isOld expiry now x.2) = items := by
    rw [hgone, hkept, List.takeWhile_append_dropWhile]
  have hn : n = (items.filter fun x => isOld expiry now x.2).length := by
    refine hfinds.eq (fun i x hx => ?_) (Nat.zero_le _)
      (List.length_filter_le _ _)
    rw [← hsplit] at hx
    rcases Nat.lt_or_ge i (items.filter fun x => isOld expiry now x.2).length with hi | hi
    · rw [List.getElem?_append_left hi] at hx
      simp [(List.mem_filter.1 (List.mem_of_getElem? hx)).2, hi]
    · rw [List.getElem?_append_right hi] at hx
      have hyoung := (List.mem_filter.1 (List.mem_of_getElem? hx)).2
      simp only [Bool.not_eq_true'] at hyoung
      simp [hyoung, Nat.not_lt.2 hi]
  constructor
  · rw [hn]
    nth_rewrite 3 [← hsplit]
    rw [List.take_left]
  · rw [hn]
    nth_rewrite 3 [← hsplit]
    rw [List.drop_left]

/-! ## Every history -/

@[simp] theorem discipline_perform (l : IdleList α) (e : IdleEvent α) :
    (l.perform e).1.discipline = l.discipline := by
  cases e with
  | insert a now =>
    simp only [perform, insert?]
    cases l.hasRoom <;> rfl
  | detach =>
    simp only [perform, detach?]
    cases l.inOrder with
    | nil => rfl
    | cons x rest =>
      simp only [withOrder]
      cases l.discipline <;> rfl
  | expire expiry now => rfl
  | reset => rfl

/-- The items that have been accepted, in the order in which they were. -/
def accepted (h : List (IdleOccurrence α)) : List α :=
  h.flatMap fun o =>
    if ((idleSystem α).shows o).isAccepted then (o.event.insertion?.map Prod.fst).toList else []

/-- The items that have left the list, in the order in which they did. -/
def left (h : List (IdleOccurrence α)) : List α := h.flatMap fun o => ((idleSystem α).shows o).left

/-- What comes onto a list and what leaves it. -/
theorem Obeys.balance {d : Discipline} {items items' : List (α × Nat)} {answer : IdleAnswer α}
    (h : Obeys d items e answer items') :
    (items.map Prod.fst ++ if answer.isAccepted then (e.insertion?.map Prod.fst).toList else []).Perm
      (answer.left ++ items'.map Prod.fst) := by
  cases h with
  | accepts _ => simp [IdleAnswer.isAccepted, IdleAnswer.left, IdleEvent.insertion?]
  | refuses _ _ => simp [IdleAnswer.isAccepted, IdleAnswer.left]
  | takesNewest _ => simp [IdleAnswer.isAccepted, IdleAnswer.left]
  | takesOldest _ => simp [IdleAnswer.isAccepted, IdleAnswer.left]
  | takesNone => simp [IdleAnswer.isAccepted, IdleAnswer.left]
  | expires =>
    simp only [IdleAnswer.isAccepted, IdleAnswer.left, ← List.map_append]
    simpa using (List.filter_append_perm _ items).symm.map Prod.fst
  | empties => simp [IdleAnswer.isAccepted, IdleAnswer.left]

/-- Items come onto a list at its end, with the newest stamp of all, and otherwise only leave it. -/
theorem Obeys.items_sublist {d : Discipline} {items items' : List (α × Nat)}
    {answer : IdleAnswer α} (h : Obeys d items e answer items') :
    items'.Sublist (items ++ e.insertion?.toList) := by
  cases h with
  | accepts _ => exact List.Sublist.refl _
  | refuses _ _ => exact List.sublist_append_left _ _
  | takesNewest _ => simp [IdleEvent.insertion?]
  | takesOldest _ => simp [IdleEvent.insertion?]
  | takesNone => exact List.Sublist.refl _
  | expires => simp [IdleEvent.insertion?]
  | empties => exact List.nil_sublist _

/-- The items are in order, and their stamps are those of insertions. -/
theorem ordered_of_run (hrun : (idleSystem α).Run h l) :
    IsOrdered l.items ∧ ∀ x ∈ l.items, x.2 ∈ stamps h := by
  induction hrun with
  | start hstart =>
    obtain ⟨discipline, rfl⟩ := hstart
    exact ⟨List.Pairwise.nil, nofun⟩
  | @next h l e hrun hall ih =>
    obtain ⟨hsorted, hstamps⟩ := ih
    have hsub := (obeys_of_ordered hsorted e).items_sublist
    have hlater : IsOrdered (l.items ++ e.insertion?.toList) := by
      refine List.pairwise_append.2 ⟨hsorted, by cases e.insertion? <;> simp, fun x hx y hy => ?_⟩
      cases e with
      | insert a now =>
        obtain rfl := List.mem_singleton.1 hy
        exact of_decide_eq_true (List.all_eq_true.1 hall _ (hstamps x hx))
      | detach | expire _ _ | reset => cases hy
    refine ⟨hlater.sublist hsub, fun x hx => ?_⟩
    simp only [stamps, List.filterMap_append, List.mem_append]
    rcases List.mem_append.1 (hsub.subset hx) with hx | hx
    · exact .inl (hstamps x hx)
    · refine .inr (List.mem_filterMap.2 ⟨_, List.mem_singleton_self _, ?_⟩)
      rw [Option.mem_toList.1 hx]
      rfl

theorem discipline_of_run (hrun : (idleSystem α).Run h l) :
    ∀ o ∈ h, o.before.discipline = l.discipline := by
  induction hrun with
  | start _ => exact nofun
  | @next h l e hrun hall ih =>
    intro o ho
    show o.before.discipline = (l.perform e).1.discipline
    rw [discipline_perform]
    rcases List.mem_append.1 ho with ho | ho
    · exact ih o ho
    · obtain rfl := List.mem_singleton.1 ho
      rfl

/-- Whatever was accepted has left the list or is on it, once for each time that it was. -/
theorem balance_of_run (hrun : (idleSystem α).Run h l) :
    (accepted h).Perm (left h ++ l.items.map Prod.fst) := by
  induction hrun with
  | start hstart =>
    obtain ⟨discipline, rfl⟩ := hstart
    exact List.Perm.nil
  | @next h l e hrun hall ih =>
    have hstep := (obeys_of_ordered (ordered_of_run hrun).1 e).balance
    have hin : accepted (h ++ [⟨l, e⟩]) = accepted h ++
        if (l.perform e).2.isAccepted then (e.insertion?.map Prod.fst).toList else [] := by
      simp only [accepted, List.flatMap_append, List.flatMap_singleton]
      rfl
    have hout : left (h ++ [⟨l, e⟩]) = left h ++ (l.perform e).2.left := by
      simp only [left, List.flatMap_append, List.flatMap_singleton]
      rfl
    rw [hin, hout, List.append_assoc]
    refine (ih.append_right _).trans ?_
    rw [List.append_assoc]
    exact hstep.append_left _

/-- An idle list that is filled with stamps that never decrease is in order at any time and obeys
the law at each event. An expiry takes the part that any search for its end finds, and what was
accepted leaves once or is still there. -/
theorem turnover_of_run (hrun : (idleSystem α).Run h l) :
    IsOrdered l.items ∧
      (∀ o ∈ h, IsOrdered o.before.items ∧ Obeys l.discipline o.before.items o.event
        ((idleSystem α).shows o) ((idleSystem α).after o).items) ∧
      (∀ o ∈ h, ∀ expiry now, o.event = .expire expiry now →
        (∃ n, Finds (fun x => isOld expiry now x.2) o.before.items 0 o.before.size n) ∧
        ∀ n, Finds (fun x => isOld expiry now x.2) o.before.items 0 o.before.size n →
          (idleSystem α).shows o = .removed ((o.before.items.take n).map Prod.fst) ∧
            ((idleSystem α).after o).items = o.before.items.drop n) ∧
      (accepted h).Perm (left h ++ l.items.map Prod.fst) := by
  have hordered : ∀ o ∈ h, IsOrdered o.before.items := fun o ho => by
    obtain ⟨pre, hpre, -, -⟩ := hrun.of_mem ho
    exact (ordered_of_run hpre).1
  refine ⟨(ordered_of_run hrun).1, fun o ho => ⟨hordered o ho, ?_⟩, fun o ho expiry now he => ?_,
    balance_of_run hrun⟩
  · have hlaw := obeys_of_ordered (hordered o ho) o.event
    rwa [discipline_of_run hrun o ho] at hlaw
  · refine ⟨exists_finds _ _ (Nat.zero_le _) (Nat.le_refl _), fun n hn => ?_⟩
    obtain ⟨before, event⟩ := o
    obtain rfl : event = .expire expiry now := he
    obtain ⟨hgone, hkept⟩ := finds_of_ordered (hordered _ ho) hn
    obtain ⟨htake, hdrop⟩ := split_of_ordered (hordered _ ho) expiry now
    rw [← hgone, ← hkept, htake, hdrop]
    exact ⟨rfl, rfl⟩

/-- A ring of two takes two items with one stamp and refuses a third. The older one is handed out,
one more comes, and at the time 8 all that are five old leave. -/
theorem turnover_of_ring : ∃ (h : List (IdleOccurrence Nat)) (l : IdleList Nat),
    (idleSystem Nat).Run h l ∧ accepted h = [1, 2, 4, 5] ∧ left h = [1, 2] ∧
      l = ⟨.ring 2, [(4, 4), (5, 9)]⟩ ∧ (accepted h).Perm (left h ++ l.items.map Prod.fst) := by
  have hstart : (idleSystem Nat).starts { discipline := .ring 2 } := ⟨.ring 2, rfl⟩
  obtain ⟨h, l, hrun, hcheck⟩ := System.exists_run_of_replay hstart
    [.insert 1 3, .insert 2 3, .insert 3 4, .detach, .insert 4 4, .expire 5 8, .expire 5 8,
      .insert 5 9]
    (fun h l => accepted h == [1, 2, 4, 5] && left h == [1, 2] &&
      decide (l = ⟨.ring 2, [(4, 4), (5, 9)]⟩)) (by decide)
  simp only [Bool.and_eq_true, beq_iff_eq, decide_eq_true_eq] at hcheck
  exact ⟨h, l, hrun, hcheck.1.1, hcheck.1.2, hcheck.2, (turnover_of_run hrun).2.2.2⟩

end IdleList

end Overseer
