import Mathlib.Data.List.Nodup
import Overseer.Supervision.Registry

/-!
# Looking things up in a registry

What a look-up finds and what `remove`, `modify` and `insert` leave, for registries in which no task
occurs twice. The schedule of startup names every ticket at most once (`nodup_schedule`), and
no ticket that is not registered (`mem_of_mem_schedule`).
-/

namespace Overseer.Registry

variable {κ ξ : Type} {reg : Registry κ ξ} {r : Registration κ ξ} {id : TaskId}

theorem mem_of_lookup? (h : reg.lookup? id = some r) : r ∈ reg := List.mem_of_find?_eq_some h

theorem id_of_lookup? (h : reg.lookup? id = some r) : r.task.id = id := by
  simpa using List.find?_some h

theorem has_of_lookup? (h : reg.lookup? id = some r) : reg.has id = true :=
  List.any_eq_true.2 ⟨r, mem_of_lookup? h, by simpa using id_of_lookup? h⟩

/-- Registrations of the same task are the same. -/
theorem eq_of_id (hn : (List.map (·.task.id) reg).Nodup) {a b : Registration κ ξ}
    (ha : a ∈ reg) (hb : b ∈ reg) (h : a.task.id = b.task.id) : a = b :=
  List.inj_on_of_nodup_map hn ha hb h

theorem lookup?_eq_some (hn : (List.map (·.task.id) reg).Nodup) (h : r ∈ reg) :
    reg.lookup? r.task.id = some r := by
  cases hf : reg.lookup? r.task.id with
  | none => simpa using List.find?_eq_none.1 hf r h
  | some r' => rw [eq_of_id hn (mem_of_lookup? hf) h (id_of_lookup? hf)]

theorem mem_remove {a : Registration κ ξ} : a ∈ reg.remove id ↔ a ∈ reg ∧ a.task.id ≠ id := by
  simp [remove]

/-- Only the registration of that task goes. -/
theorem mem_remove_or_eq (hn : (List.map (·.task.id) reg).Nodup) (h : reg.lookup? id = some r)
    {a : Registration κ ξ} (ha : a ∈ reg) : a ∈ reg.remove id ∨ a = r := by
  by_cases hid : a.task.id = id
  · exact Or.inr (eq_of_id hn ha (mem_of_lookup? h) (hid.trans (id_of_lookup? h).symm))
  · exact Or.inl (mem_remove.2 ⟨ha, hid⟩)

theorem mem_insert {a : Registration κ ξ} : a ∈ reg.insert r ↔ a = r ∨ a ∈ reg :=
  (insert_perm r reg).mem_iff.trans List.mem_cons

/-- A relation that fits the keys is kept by who comes in. -/
theorem insert_of_pairwise {R : Registration κ ξ → Registration κ ξ → Prop}
    (hreg : List.Pairwise R reg)
    (hsorted : List.Pairwise (fun a b => a.sortKey ≤ b.sortKey) reg)
    (hbefore : ∀ a ∈ reg, a.sortKey ≤ r.sortKey → R a r)
    (hafter : ∀ a ∈ reg, r.sortKey < a.sortKey → R r a) :
    List.Pairwise R (reg.insert r) := by
  induction reg with
  | nil => simp [insert]
  | cons a reg ih =>
    obtain ⟨ha, hreg⟩ := List.pairwise_cons.1 hreg
    obtain ⟨hkey, hsorted⟩ := List.pairwise_cons.1 hsorted
    unfold insert
    split
    · rename_i hless
      refine List.pairwise_cons.2 ⟨fun b hb => hafter b hb ?_, List.pairwise_cons.2 ⟨ha, hreg⟩⟩
      rcases List.mem_cons.1 hb with rfl | hb
      · exact hless
      · exact Nat.lt_of_lt_of_le hless (hkey b hb)
    · rename_i hge
      refine List.pairwise_cons.2 ⟨fun b hb => ?_, ih hreg hsorted
        (fun b hb => hbefore b (List.mem_cons_of_mem _ hb))
        fun b hb => hafter b (List.mem_cons_of_mem _ hb)⟩
      rcases mem_insert.1 hb with rfl | hb
      · exact hbefore a List.mem_cons_self (Nat.le_of_not_lt hge)
      · exact ha b hb

theorem mem_modify {f : Registration κ ξ → Registration κ ξ} {a : Registration κ ξ}
    (h : a ∈ reg.modify id f) :
    ∃ b ∈ reg, (b.task.id = id ∧ a = f b) ∨ (b.task.id ≠ id ∧ a = b) := by
  obtain ⟨b, hb, rfl⟩ := List.mem_map.1 h
  refine ⟨b, hb, ?_⟩
  by_cases hid : b.task.id = id
  · simp [hid]
  · simp [hid]

/-- What a change of one registration leaves alone stays the same for all. -/
theorem map_modify {α : Type} {f : Registration κ ξ → Registration κ ξ}
    {g : Registration κ ξ → α} (h : ∀ r, g (f r) = g r) :
    List.map g (reg.modify id f) = List.map g reg := by
  simp only [modify, List.map_map]
  refine List.map_congr_left fun a _ => ?_
  show g (if a.task.id == id then f a else a) = g a
  split
  · exact h a
  · rfl

theorem has_eq_false : reg.has id = false ↔ ∀ a ∈ reg, a.task.id ≠ id := by
  simp [has, List.any_eq_false]

/-! ## The order of startup -/

theorem nodup_eraseDups (xs : List Nat) : xs.eraseDups.Nodup := by
  induction hn : xs.length using Nat.strongRecOn generalizing xs with
  | _ n ih =>
    cases xs with
    | nil => simp
    | cons x xs =>
      have hlt : (xs.filter fun b => !b == x).length < n := by
        have hle := List.length_filter_le (fun b => !b == x) xs
        simp only [List.length_cons] at hn
        omega
      rw [List.eraseDups_cons, List.nodup_cons]
      refine ⟨fun hx => ?_, ih _ hlt _ rfl⟩
      simpa using (List.mem_filter.1 (List.mem_eraseDups.1 hx)).2

theorem map_ticket_schedule (reg : Registry κ ξ) : reg.schedule.map (·.ticket) =
    reg.places.filterMap fun i => (List.map (·.ticket) reg)[i]? := by
  unfold schedule
  rw [List.map_filterMap]
  congr 1
  funext i
  simp only [Option.map_map, List.getElem?_map]
  rfl

theorem nodup_schedule (h : (List.map (·.ticket) reg).Nodup) :
    (reg.schedule.map (·.ticket)).Nodup := by
  rw [map_ticket_schedule]
  refine List.Nodup.filterMap (fun i j k hi hj => ?_) (nodup_eraseDups _)
  obtain ⟨hlt, _⟩ := List.getElem?_eq_some_iff.1 hi
  exact (List.getElem?_inj hlt h).1 ((Option.mem_def.1 hi).trans (Option.mem_def.1 hj).symm)

theorem entry_of_mem_schedule {e : Entry} (h : e ∈ reg.schedule) :
    e ∈ List.map (·.entry) reg := by
  obtain ⟨i, -, hi⟩ := List.mem_filterMap.1 h
  obtain ⟨r, hr, rfl⟩ := Option.map_eq_some_iff.1 hi
  exact List.mem_map_of_mem (List.mem_of_getElem? hr)

theorem mem_of_mem_schedule {e : Entry} (h : e ∈ reg.schedule) :
    e.ticket ∈ List.map (·.ticket) reg := by
  obtain ⟨r, hr, rfl⟩ := List.mem_map.1 (entry_of_mem_schedule h)
  exact List.mem_map_of_mem hr

end Overseer.Registry
