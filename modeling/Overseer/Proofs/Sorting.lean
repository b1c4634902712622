import Mathlib.Data.List.Perm.Basic
import Mathlib.Data.List.Pairwise

/-!
# Lists told by their pairs

A list without repetitions is known by its members and by the order of each two of them
(`eq_of_pairs`). So is the stable sort of such a list: it is sorted, and of two that tie the one
comes first that came first in the list (`eq_mergeSort`).
-/

namespace Overseer

variable {α : Type} [DecidableEq α] {xs ys : List α} {a b : α}

/-- In a list without repetitions one of two comes first. -/
theorem idxOf_lt_of_pair (hys : ys.Nodup) (h : [a, b].Sublist ys) : ys.idxOf a < ys.idxOf b := by
  have hplaces : ys.Pairwise fun x y => ys.idxOf x < ys.idxOf y := by
    refine List.pairwise_iff_getElem.2 fun i j hi hj hij => ?_
    rwa [hys.idxOf_getElem i hi, hys.idxOf_getElem j hj]
  simpa using hplaces.sublist h

/-- Lists with the same members are the same if each two have the same order in both. -/
theorem eq_of_pairs (hys : ys.Nodup) (hperm : xs.Perm ys)
    (hpairs : xs.Pairwise fun a b => [a, b].Sublist ys) : xs = ys :=
  hperm.eq_of_pairwise
    (fun _ _ _ _ hab hba =>
      absurd (idxOf_lt_of_pair hys hab) (Nat.lt_asymm (idxOf_lt_of_pair hys hba)))
    hpairs (List.pairwise_iff_forall_sublist.2 fun h => h)

/-- A list with the members of another is the stable sort of that if it is sorted and keeps ties in
their order. -/
theorem eq_mergeSort {le : α → α → Bool}
    (htrans : ∀ a b c, le a b = true → le b c = true → le a c = true)
    (htotal : ∀ a b, (le a b || le b a) = true) (hys : ys.Nodup) (hperm : xs.Perm ys)
    (hpairs : xs.Pairwise fun a b => le a b = true ∧ (le b a = true → [a, b].Sublist ys)) :
    xs = ys.mergeSort le := by
  have hsort : (ys.mergeSort le).Perm ys := List.mergeSort_perm ys le
  have hsorted : (ys.mergeSort le).Pairwise fun a b => le a b = true :=
    List.pairwise_mergeSort htrans htotal ys
  -- one of two members of the sorted list comes first
  have hpair : ∀ a ∈ xs, ∀ b ∈ xs, a ≠ b →
      [a, b].Sublist (ys.mergeSort le) ∨ [b, a].Sublist (ys.mergeSort le) := by
    intro a ha b hb
    have hsymm : Std.Symm fun a b : α =>
        [a, b].Sublist (ys.mergeSort le) ∨ [b, a].Sublist (ys.mergeSort le) := ⟨fun _ _ => Or.symm⟩
    have hall := List.pairwise_iff_forall_sublist (l := ys.mergeSort le) (R := fun a b =>
      [a, b].Sublist (ys.mergeSort le) ∨ [b, a].Sublist (ys.mergeSort le)).2 fun h => .inl h
    exact hall.forall ((hperm.trans hsort.symm).subset ha) ((hperm.trans hsort.symm).subset hb)
  refine eq_of_pairs (hsort.nodup_iff.2 hys) (hperm.trans hsort.symm)
    (hpairs.imp_of_mem fun {a b} ha hb ⟨hle, hties⟩ => ?_)
  by_cases htie : le b a = true
  · exact List.pair_sublist_mergeSort htrans htotal hle (hties htie)
  · refine (hpair a ha b hb fun hsame => htie (hsame ▸ hle)).resolve_right fun hba => htie ?_
    exact List.pairwise_iff_forall_sublist.1 hsorted hba

end Overseer
