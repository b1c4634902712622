import Overseer.Proofs.Config.Merge

/-!
# Values told by their paths

What stands at a path, with whatever stands below it left out, is the head of the value there
(`Value.head?`). All its heads together make a value (`Value.eq_of_head?`).

Laid over another value, a value has one `Word` about each path, and that is all that matters there:
it says what stands at the path, it is silent if nothing does, or it hides the path behind something
that is not a dictionary. What stands at the path afterwards is a matter of that word and of what
stood there before (`Value.head?_merge`). No path needs a look at another one.
-/

namespace Overseer

namespace Entries

variable {es fs : Entries} {key : String} {v : Value}

theorem mem_iff_find? (hes : es.IsSorted) : (key, v) ∈ es ↔ find? key es = some v := by
  induction es with
  | nil => simp
  | cons e es ih =>
    obtain ⟨k, u⟩ := e
    obtain ⟨hfirst, hes⟩ := isSorted_cons_iff.mp hes
    by_cases hk : k = key
    · subst hk
      have hnot : (k, v) ∉ es := fun hmem =>
        absurd (hfirst k (List.mem_map_of_mem hmem)) (lt_irrefl k)
      simp [find?, hnot, eq_comm]
    · simp [find?, hk, Ne.symm hk, ih hes]

/-- Sorted entries are told by what they have at each key. -/
theorem eq_of_find? (hes : es.IsSorted) (hfs : fs.IsSorted)
    (h : ∀ key, find? key es = find? key fs) : es = fs := by
  have hperm : es.Perm fs := by
    refine (List.perm_ext_iff_of_nodup hes.nodup.of_map hfs.nodup.of_map).mpr fun e => ?_
    obtain ⟨key, v⟩ := e
    rw [mem_iff_find? hes, mem_iff_find? hfs, h]
  exact hperm.eq_of_pairwise (fun _ _ _ _ hab hba => absurd hab (lt_asymm hba))
    (List.pairwise_map.mp hes) (List.pairwise_map.mp hfs)

end Entries

namespace Value

open Entries (find?)

variable {u v : Value} {es fs : Entries} {key : String} {path : List String}

/-! ## Heads -/

/-- What stands at a place, whatever stands below it. -/
def head : Value → Value
  | dict _ => dict []
  | v => v

/-- What stands at a path, whatever stands below it. -/
def head? (v : Value) (path : List String) : Option Value := (v.at? path).map head

theorem head_of_not_dict (h : ∀ es, v ≠ dict es) : v.head = v := by
  cases v with
  | dict es => exact absurd rfl (h es)
  | _ => rfl

@[simp] theorem head?_nil (v : Value) : v.head? [] = some v.head := by simp [head?]

@[simp] theorem head?_cons_dict (es : Entries) (key : String) (path : List String) :
    (dict es).head? (key :: path) = (find? key es).bind (head? · path) := by
  rw [head?, at?_cons_dict, Option.map_bind]
  rfl

theorem head?_cons_of_not_dict (h : ∀ es, v ≠ dict es) (key : String) (path : List String) :
    v.head? (key :: path) = none := by
  rw [head?, at?_cons_of_not_dict h]
  rfl

theorem sizeOf_lt_of_find? (h : find? key es = some v) : sizeOf v < sizeOf (dict es) := by
  induction es with
  | nil => simp at h
  | cons e es ih =>
    obtain ⟨k, u⟩ := e
    simp only [find?] at h
    simp only [dict.sizeOf_spec, List.cons.sizeOf_spec, Prod.mk.sizeOf_spec] at ih ⊢
    split at h
    · obtain rfl := Option.some.inj h
      omega
    · have := ih h
      omega

/-- A value is told by what stands at each path. -/
theorem eq_of_head? (hu : u.IsSorted) (hv : v.IsSorted) (h : ∀ path, u.head? path = v.head? path) :
    u = v := by
  induction hn : sizeOf u using Nat.strongRecOn generalizing u v with
  | _ n ih =>
    have hhead : u.head = v.head := by simpa using h []
    by_cases hdict : ∃ es, u = dict es
    · obtain ⟨es, rfl⟩ := hdict
      obtain ⟨fs, rfl⟩ : ∃ fs, v = dict fs := by
        by_contra hnot
        rw [not_exists] at hnot
        rw [head_of_not_dict hnot] at hhead
        exact hnot [] hhead.symm
      rw [isSorted_dict_iff] at hu hv
      refine congrArg dict (Entries.eq_of_find? hu.1 hv.1 fun key => ?_)
      have hbelow : ∀ path,
          (find? key es).bind (head? · path) = (find? key fs).bind (head? · path) :=
        fun path => by simpa using h (key :: path)
      cases hes : find? key es with
      | none =>
        cases hfs : find? key fs with
        | none => rfl
        | some y => simpa [hes, hfs] using hbelow []
      | some x =>
        cases hfs : find? key fs with
        | none => simpa [hes, hfs] using hbelow []
        -- both go on below the key, where the values are smaller
        | some y =>
          have hlt : sizeOf x < n := hn ▸ sizeOf_lt_of_find? hes
          have hsame : x = y := ih _ hlt (hu.2 key x hes) (hv.2 key y hfs)
            (fun path => by simpa [hes, hfs] using hbelow path) rfl
          rw [hsame]
    · rw [not_exists] at hdict
      have hdict' : ∀ es, v ≠ dict es := fun es hes => by
        rw [head_of_not_dict hdict, hes] at hhead
        exact hdict [] hhead
      rwa [head_of_not_dict hdict, head_of_not_dict hdict'] at hhead

theorem at?_append (v : Value) (path q : List String) :
    v.at? (path ++ q) = (v.at? path).bind (at? · q) := by
  induction path generalizing v with
  | nil => simp
  | cons key path ih =>
    cases v with
    | dict es =>
      rw [List.cons_append, at?_cons_dict, at?_cons_dict, Option.bind_assoc]
      exact congrArg _ (funext ih)
    | _ => rfl

theorem head?_append (v : Value) (path q : List String) :
    v.head? (path ++ q) = (v.at? path).bind (head? · q) := by
  rw [head?, at?_append, Option.map_bind]
  rfl

theorem IsSorted.at? (hu : u.IsSorted) (h : u.at? path = some v) : v.IsSorted := fun q es hat =>
  hu (path ++ q) es (by rw [at?_append, h]; exact hat)

/-- What is at a path is told by what stands there and below it. -/
theorem at?_eq_of_head? (hu : u.IsSorted) (hv : v.IsSorted)
    (h : ∀ q, u.head? (path ++ q) = v.head? (path ++ q)) : u.at? path = v.at? path := by
  have hbelow : ∀ q, (u.at? path).bind (head? · q) = (v.at? path).bind (head? · q) := fun q => by
    rw [← head?_append, ← head?_append, h]
  cases hat : u.at? path with
  | none =>
    cases hat' : v.at? path with
    | none => rfl
    | some y => simpa [hat, hat'] using hbelow []
  | some x =>
    cases hat' : v.at? path with
    | none => simpa [hat, hat'] using hbelow []
    | some y =>
      rw [eq_of_head? (hu.at? hat) (hv.at? hat') fun q => by simpa [hat, hat'] using hbelow q]

/-! ## Words -/

/-- What a value that is laid over another one has to say about a path. -/
inductive Word where
  /-- This stands there. -/
  | sets (head : Value)
  /-- Nothing stands there, and nothing but dictionaries on the way. -/
  | silent
  /-- Something that is not a dictionary stands on the way. -/
  | hides

/-- What stands at a path after a word about it, given what stood there before: arrays are joined,
and anything else is replaced. -/
def Word.over : Word → Option Value → Option Value
  | sets (array ys), some (array xs) => some (array (xs ++ ys))
  | sets v, _ => some v
  | silent, before => before
  | hides, _ => none

/-- The word of a value about a path. -/
def word : Value → List String → Word
  | v, [] => .sets v.head
  | dict es, key :: path => (find? key es).elim .silent (word · path)
  | _, _ :: _ => .hides

@[simp] theorem word_nil (v : Value) : v.word [] = .sets v.head := by
  cases v <;> rfl

@[simp] theorem word_cons_dict (es : Entries) (key : String) (path : List String) :
    (dict es).word (key :: path) = (find? key es).elim .silent (word · path) := rfl

theorem word_cons_of_not_dict (h : ∀ es, v ≠ dict es) (key : String) (path : List String) :
    v.word (key :: path) = .hides := by
  cases v with
  | dict es => exact absurd rfl (h es)
  | _ => rfl

/-- With nothing before it, a value says what it has. -/
theorem over_word_none (v : Value) (path : List String) :
    (v.word path).over none = v.head? path := by
  induction path generalizing v with
  | nil =>
    rw [word_nil, head?_nil]
    cases v <;> rfl
  | cons key path ih =>
    by_cases hdict : ∃ es, v = dict es
    · obtain ⟨es, rfl⟩ := hdict
      rw [word_cons_dict, head?_cons_dict]
      cases find? key es with
      | none => rfl
      | some w => exact ih w
    · rw [not_exists] at hdict
      rw [word_cons_of_not_dict hdict, head?_cons_of_not_dict hdict]
      rfl

theorem head_merge (u v : Value) :
    some (merge .append u v).head = (v.word []).over (u.head? []) := by
  rw [word_nil, head?_nil]
  cases v with
  | dict fs => cases u <;> simp [merge, head, Word.over]
  | array ys => cases u <;> simp [merge, head, Word.over, Arrays.join]
  | _ => simp [merge, head, Word.over]

theorem merge_not_dict (h : ∀ es, v ≠ dict es) (u : Value) (es : Entries) :
    merge .append u v ≠ dict es := by
  cases v with
  | dict fs => exact absurd rfl (h fs)
  | array ys => cases u <;> simp [merge]
  | _ => simp [merge]

/-- What stands at a path after a merge is a matter of the word about that path. -/
theorem head?_merge (hv : v.IsSorted) (u : Value) (path : List String) :
    (merge .append u v).head? path = (v.word path).over (u.head? path) := by
  induction path generalizing u v with
  | nil => rw [head?_nil, head_merge]
  | cons key path ih =>
    by_cases hdict : ∃ fs, v = dict fs
    · obtain ⟨fs, rfl⟩ := hdict
      by_cases hdict' : ∃ es, u = dict es
      · obtain ⟨es, rfl⟩ := hdict'
        rw [isSorted_dict_iff] at hv
        rw [merge_dict_dict, head?_cons_dict, head?_cons_dict, find?_mergeEntries hv.1,
          word_cons_dict]
        cases hfs : find? key fs with
        | none => rfl
        | some w =>
          cases hes : find? key es with
          | none => exact (over_word_none w path).symm
          | some x => exact ih (hv.2 key w hfs) x
      -- over anything else a dictionary starts afresh
      · rw [not_exists] at hdict'
        rw [merge_dict_of_not_dict hdict', head?_cons_of_not_dict hdict', over_word_none]
    · rw [not_exists] at hdict
      rw [word_cons_of_not_dict hdict, head?_cons_of_not_dict (merge_not_dict hdict u)]
      rfl

theorem word_append_of_silent (h : v.word path = .silent) (q : List String) :
    v.word (path ++ q) = .silent := by
  induction path generalizing v with
  | nil => simp at h
  | cons key path ih =>
    by_cases hdict : ∃ es, v = dict es
    · obtain ⟨es, rfl⟩ := hdict
      rw [word_cons_dict] at h
      rw [List.cons_append, word_cons_dict]
      cases hes : find? key es with
      | none => rfl
      | some w => exact ih (by simpa [hes] using h)
    · rw [not_exists] at hdict
      simp [word_cons_of_not_dict hdict] at h

/-- A dictionary is silent about a path if it has nothing on the way. -/
theorem word_of_unmentioned (hne : path ≠ [])
    (h : ∀ q, q ≠ [] → q <+: path ∨ path <+: q → (dict es).at? q = none) :
    (dict es).word path = .silent := by
  obtain ⟨key, path, rfl⟩ := List.exists_cons_of_ne_nil hne
  have hfirst := h [key] (by simp) (.inl (List.prefix_append [key] path))
  have hnone : find? key es = none := by
    cases hes : find? key es with
    | none => rfl
    | some v => simp [hes] at hfirst
  rw [word_cons_dict, hnone]
  rfl

end Value

end Overseer
