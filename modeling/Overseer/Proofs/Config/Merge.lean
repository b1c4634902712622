import Mathlib.Data.List.Nodup
import Mathlib.Data.String.Basic
import Overseer.Config.Value

/-!
# Values laid over one another

`Value.merge` goes through the later value. What it leaves at a path of keys is said here without
that recursion (`Value.at?_merge`): if the later value has nothing but dictionaries on the way to
the end of the path (`Value.Opens`), then the two values at the end of the path are laid over one
another, and if the later value has nothing there, the earlier one stays.

This needs dictionaries in which no key occurs twice, as a merge looks at every entry and a path
at the first one of its key. `Value.IsSorted` says so of every dictionary at a path of keys, by
the order of the keys, which is what `Entries.put` can keep.
-/

namespace Overseer

namespace Entries

/-- The keys increase. -/
def IsSorted (es : Entries) : Prop := (es.map Prod.fst).Pairwise (· < ·)

theorem isSorted_nil : IsSorted [] := List.Pairwise.nil

theorem isSorted_cons_iff {key : String} {v : Value} {es : Entries} :
    IsSorted ((key, v) :: es) ↔ (∀ k ∈ es.map Prod.fst, key < k) ∧ IsSorted es :=
  List.pairwise_cons

theorem IsSorted.nodup {es : Entries} (h : es.IsSorted) : (es.map Prod.fst).Nodup :=
  List.Pairwise.imp (fun hlt => ne_of_lt hlt) h

theorem find?_eq_none_iff {key : String} {es : Entries} :
    find? key es = none ↔ key ∉ es.map Prod.fst := by
  induction es with
  | nil => simp
  | cons e es ih =>
    obtain ⟨k, v⟩ := e
    by_cases hk : k = key
    · simp [find?, hk]
    · simp [find?, hk, ih, Ne.symm hk]

theorem mem_keys_put {k key : String} {v : Value} {es : Entries} :
    k ∈ (put key v es).map Prod.fst ↔ k = key ∨ k ∈ es.map Prod.fst := by
  induction es with
  | nil => simp [put]
  | cons e es ih =>
    obtain ⟨k', u⟩ := e
    simp only [put]
    split
    · rename_i hk
      simp_all
    · split
      · simp
      · simp only [List.map_cons, List.mem_cons, ih]
        tauto

theorem IsSorted.put {es : Entries} (h : es.IsSorted) (key : String) (v : Value) :
    IsSorted (put key v es) := by
  induction es with
  | nil => simp [Entries.put, IsSorted]
  | cons e es ih =>
    obtain ⟨k, u⟩ := e
    rw [isSorted_cons_iff] at h
    simp only [Entries.put]
    split
    · rename_i hk
      rw [beq_iff_eq] at hk
      exact isSorted_cons_iff.mpr ⟨hk ▸ h.1, h.2⟩
    · rename_i hne
      split
      · rename_i hlt
        refine isSorted_cons_iff.mpr ⟨fun k' hk' => ?_, isSorted_cons_iff.mpr h⟩
        rcases List.mem_cons.mp hk' with rfl | hk'
        · exact hlt
        · exact lt_trans hlt (h.1 k' hk')
      · rename_i hnlt
        rw [beq_iff_eq] at hne
        have hlt : k < key := lt_of_le_of_ne (not_lt.mp hnlt) (Ne.symm hne)
        refine isSorted_cons_iff.mpr ⟨fun k' hk' => ?_, ih h.2⟩
        rcases mem_keys_put.mp hk' with rfl | hk'
        · exact hlt
        · exact h.1 k' hk'

end Entries

namespace Value

open Entries (find?)

variable {policy : Arrays} {u v w : Value} {es fs : Entries} {key : String}
  {path : List String}

/-! ## Paths -/

@[simp] theorem at?_nil (v : Value) : v.at? [] = some v := by
  cases v <;> rfl

@[simp] theorem at?_cons_dict (es : Entries) (key : String) (path : List String) :
    (dict es).at? (key :: path) = (find? key es).bind (at? · path) := rfl

theorem at?_cons_of_not_dict (h : ∀ es, v ≠ dict es) (key : String) (path : List String) :
    v.at? (key :: path) = none := by
  cases v with
  | dict es => exact absurd rfl (h es)
  | _ => rfl

/-- Every dictionary at a path of keys is sorted. -/
def IsSorted (v : Value) : Prop :=
  ∀ path es, v.at? path = some (dict es) → Entries.IsSorted es

theorem isSorted_of_not_dict (h : ∀ es, v ≠ dict es) : v.IsSorted := by
  intro path es hat
  cases path with
  | nil => simp [h es] at hat
  | cons key path => simp [at?_cons_of_not_dict h] at hat

theorem isSorted_dict_iff :
    (dict es).IsSorted ↔ es.IsSorted ∧ ∀ key v, find? key es = some v → v.IsSorted := by
  constructor
  · exact fun h => ⟨h [] es (at?_nil _), fun key v hv path fs hat => h (key :: path) fs (by
      simpa [hv] using hat)⟩
  · rintro ⟨hes, hvs⟩ path fs hat
    cases path with
    | nil =>
      cases (at?_nil _).symm.trans hat
      exact hes
    | cons key path =>
      obtain ⟨v, hv, hat⟩ := Option.bind_eq_some_iff.mp hat
      exact hvs key v hv path fs hat

theorem isSorted_dict_nil : (dict []).IsSorted :=
  isSorted_dict_iff.mpr ⟨Entries.isSorted_nil, by simp⟩

theorem isSorted_put (hes : (dict es).IsSorted) (hv : v.IsSorted) (key : String) :
    (dict (Entries.put key v es)).IsSorted := by
  rw [isSorted_dict_iff] at hes ⊢
  refine ⟨hes.1.put key v, fun k w hw => ?_⟩
  by_cases hk : k = key
  · rw [hk, Entries.find?_put_self, Option.some.injEq] at hw
    exact hw ▸ hv
  · rw [Entries.find?_put_of_ne hk] at hw
    exact hes.2 k w hw

theorem isSorted_nested (hv : v.IsSorted) (path : List String) : (nested path v).IsSorted := by
  induction path with
  | nil => exact hv
  | cons key path ih => exact isSorted_put isSorted_dict_nil ih key

/-! ## Merges -/

/-- A value laid over what is there, if anything is. -/
def onto (policy : Arrays) (earlier : Option Value) (later : Value) : Value :=
  earlier.elim later (merge policy · later)

theorem mergeEntries_cons (policy : Arrays) (es fs : Entries) (key : String) (v : Value) :
    mergeEntries policy es ((key, v) :: fs) =
      mergeEntries policy (Entries.put key (onto policy (find? key es) v) es) fs := by
  simp only [mergeEntries, onto]
  cases find? key es <;> rfl

@[simp] theorem merge_dict_dict (policy : Arrays) (es fs : Entries) :
    merge policy (dict es) (dict fs) = dict (mergeEntries policy es fs) := by
  simp [merge]

theorem merge_dict_of_not_dict (h : ∀ es, u ≠ dict es) (policy : Arrays) (fs : Entries) :
    merge policy u (dict fs) = dict fs := by
  cases u with
  | dict es => exact absurd rfl (h es)
  | _ => simp [merge]

/-- What merged entries have at a key. -/
theorem find?_mergeEntries (hfs : fs.IsSorted) (es : Entries) (key : String) :
    find? key (mergeEntries policy es fs) =
      match find? key fs with
      | none => find? key es
      | some v => some (onto policy (find? key es) v) := by
  induction fs generalizing es with
  | nil => simp [mergeEntries]
  | cons f fs ih =>
    obtain ⟨k, v⟩ := f
    rw [mergeEntries_cons, ih (Entries.isSorted_cons_iff.mp hfs).2]
    by_cases hk : k = key
    · subst hk
      have : find? k fs = none := Entries.find?_eq_none_iff.mpr (List.nodup_cons.mp hfs.nodup).1
      simp [this, Entries.find?_put_self, find?]
    · simp [Entries.find?_put_of_ne (Ne.symm hk), find?, hk]

theorem isSorted_mergeEntries (hes : es.IsSorted) (fs : Entries) :
    (mergeEntries policy es fs).IsSorted := by
  induction fs generalizing es with
  | nil => simpa [mergeEntries] using hes
  | cons f fs ih =>
    rw [mergeEntries_cons]
    exact ih (hes.put _ _)

theorem IsSorted.merge (hu : u.IsSorted) (hv : v.IsSorted) : (merge policy u v).IsSorted := by
  intro path
  induction path generalizing u v with
  | nil =>
    intro ms hat
    cases v with
    | dict fs =>
      cases u with
      | dict es =>
        rw [merge_dict_dict, at?_nil, Option.some.injEq, dict.injEq] at hat
        exact hat ▸ isSorted_mergeEntries (isSorted_dict_iff.mp hu).1 fs
      | _ =>
        rw [merge_dict_of_not_dict (by simp)] at hat
        exact hv [] ms hat
    | array ys => cases u <;> simp [Value.merge] at hat
    | _ => simp [Value.merge] at hat
  | cons key path ih =>
    intro ms hat
    cases v with
    | dict fs =>
      cases u with
      | dict es =>
        rw [isSorted_dict_iff] at hu hv
        rw [merge_dict_dict, at?_cons_dict, find?_mergeEntries hv.1] at hat
        cases hfs : find? key fs with
        | none =>
          obtain ⟨w, hw, hat⟩ := Option.bind_eq_some_iff.mp (by simpa only [hfs] using hat)
          exact hu.2 key w hw path ms hat
        | some w =>
          have hw := hv.2 key w hfs
          simp only [hfs, Option.bind_some] at hat
          cases hes : find? key es with
          | none => exact hw path ms (by simpa [onto, hes] using hat)
          | some x => exact ih (hu.2 key x hes) hw ms (by simpa [onto, hes] using hat)
      | _ =>
        rw [merge_dict_of_not_dict (by simp)] at hat
        exact hv _ ms hat
    | array ys => cases u <;> simp [Value.merge, at?] at hat
    | _ => simp [Value.merge, at?] at hat

/-- Nothing but dictionaries stands on the way to the end of a path. -/
def Opens (v : Value) (path : List String) : Prop :=
  ∀ q, q <+: path → q ≠ path → ∀ w, v.at? q = some w → ∃ es, w = dict es

theorem Opens.dict_of_cons (h : v.Opens (key :: path)) : ∃ es, v = dict es :=
  h [] List.nil_prefix (by simp) v (at?_nil v)

theorem Opens.of_find? (h : (dict es).Opens (key :: path)) (hv : find? key es = some v) :
    v.Opens path := fun q hq hne w hw =>
  h (key :: q) (List.cons_prefix_cons.mpr ⟨rfl, hq⟩) (by simpa using hne) w (by simpa [hv] using hw)

/-- What a merge leaves at a path that the later value opens. -/
theorem at?_merge (hv : v.IsSorted) (ho : v.Opens path) (u : Value) :
    (merge policy u v).at? path =
      match v.at? path with
      | none => u.at? path
      | some w => some (onto policy (u.at? path) w) := by
  induction path generalizing u v with
  | nil => simp [onto]
  | cons key path ih =>
    obtain ⟨fs, rfl⟩ := ho.dict_of_cons
    by_cases hu : ∃ es, u = dict es
    · obtain ⟨es, rfl⟩ := hu
      rw [isSorted_dict_iff] at hv
      rw [merge_dict_dict, at?_cons_dict, find?_mergeEntries hv.1]
      simp only [at?_cons_dict]
      cases hfs : find? key fs with
      | none => rfl
      | some w =>
        simp only [Option.bind_some]
        cases hes : find? key es with
        | none => cases hat : w.at? path <;> simp [onto, hat]
        | some x => simpa [onto] using ih (hv.2 key w hfs) (ho.of_find? hfs) x
    · rw [not_exists] at hu
      rw [merge_dict_of_not_dict hu, at?_cons_of_not_dict hu]
      cases (dict fs).at? (key :: path) <;> rfl

end Value

end Overseer
