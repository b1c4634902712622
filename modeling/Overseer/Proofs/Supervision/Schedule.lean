import Mathlib.Data.List.Nodup
import Mathlib.Data.List.Pairwise
import Mathlib.Data.List.Perm.Basic
import Overseer.Supervision.Registry

/-!
# The schedule of startup and the order of visits

Tasks are visited by ascending sort key, where a task without a priority has the key
`RegisterOptions.defaultPriority`. Startup does not look at the keys. It goes through the
priorities, and comes to the tasks without one when it is through (`Registry.schedule`).

`schedule_eq` says what that comes to for a registry that is sorted: what has a priority
(`Registration.isPrioritized`) as visited, and then the rest as visited. So the two orders are the
same exactly if nothing without a priority is visited before something that has one
(`schedule_eq_iff`), and they are if every priority in use is below the default one
(`schedule_of_lt`).
-/

namespace Overseer

namespace RegisterOptions

variable {π κ : Type}

/-- The priorities are a set: they ascend strictly. -/
def IsProper (o : RegisterOptions π κ) : Prop := o.priorities.Pairwise (· < ·)

instance (o : RegisterOptions π κ) : Decidable o.IsProper :=
  inferInstanceAs (Decidable (o.priorities.Pairwise (· < ·)))

theorem mem_insertPriority {n m : Nat} {ns : List Nat} :
    m ∈ insertPriority n ns ↔ m = n ∨ m ∈ ns := by
  induction ns with
  | nil => simp [insertPriority]
  | cons k ns ih =>
    unfold insertPriority
    split
    · simp
    · split
      · rename_i heq
        simp only [beq_iff_eq] at heq
        simp [heq]
      · simp only [List.mem_cons, ih]
        exact or_left_comm

/-- A priority that is added goes to its place. -/
theorem IsProper.withPriority {o : RegisterOptions π κ} (h : o.IsProper) (n : Nat) :
    (o.withPriority n).IsProper := by
  suffices hins : ∀ ns : List Nat, ns.Pairwise (· < ·) →
      (insertPriority n ns).Pairwise (· < ·) from hins _ h
  intro ns hns
  induction ns with
  | nil => simp [insertPriority]
  | cons m ns ih =>
    obtain ⟨hm, hns'⟩ := List.pairwise_cons.1 hns
    unfold insertPriority
    split
    · rename_i hlt
      refine List.pairwise_cons.2 ⟨fun k hk => ?_, hns⟩
      rcases List.mem_cons.1 hk with rfl | hk
      · exact hlt
      · exact Nat.lt_trans hlt (hm k hk)
    · split
      · exact hns
      · rename_i hle hne
        simp only [beq_iff_eq] at hne
        refine List.pairwise_cons.2 ⟨fun k hk => ?_, ih hns'⟩
        rcases mem_insertPriority.1 hk with rfl | hk
        · omega
        · exact hm k hk

theorem isProper_default : ({} : RegisterOptions π κ).IsProper := List.Pairwise.nil

/-- The sort key is the lowest priority. -/
theorem sortKey_le {o : RegisterOptions π κ} (h : o.IsProper) {p : Nat} (hp : p ∈ o.priorities) :
    o.sortKey ∈ o.priorities ∧ o.sortKey ≤ p := by
  unfold IsProper at h
  unfold sortKey
  cases hns : o.priorities with
  | nil => simp [hns] at hp
  | cons m ns =>
    rw [hns] at h hp
    refine ⟨by simp, ?_⟩
    rcases List.mem_cons.1 hp with rfl | hp
    · simp
    · exact Nat.le_of_lt ((List.pairwise_cons.1 h).1 p hp)

end RegisterOptions

variable {κ ξ : Type}

namespace Registration

/-- The registration names a priority. -/
def isPrioritized (r : Registration κ ξ) : Bool := !r.options.priorities.isEmpty

theorem isPrioritized_iff {r : Registration κ ξ} :
    r.isPrioritized = true ↔ ∃ p, p ∈ r.options.priorities := by
  simp [isPrioritized, List.eq_nil_iff_forall_not_mem]

theorem sortKey_of_unprioritized {r : Registration κ ξ} (h : r.isPrioritized = false) :
    r.sortKey = RegisterOptions.defaultPriority := by
  have hnil : r.options.priorities = [] := by simpa [isPrioritized] using h
  rw [sortKey, RegisterOptions.sortKey, hnil]
  rfl

end Registration

namespace Registry

variable {reg : Registry κ ξ}

/-! ## Sorting and forgetting repetitions -/

/-- A turn comes before another: by its priority, and then by its place. -/
def Precedes (a b : Nat × Nat) : Prop := a.1 < b.1 ∨ a.1 = b.1 ∧ a.2 ≤ b.2

/-- A sort by priority leaves turns of one priority as they are. -/
theorem precedes_mergeSort {ts : List (Nat × Nat)} (h : ts.Pairwise fun a b => a.2 ≤ b.2) :
    (ts.mergeSort fun a b => a.1 ≤ b.1).Pairwise Precedes := by
  rw [← List.mergeSort_zipIdx, List.pairwise_map]
  refine List.Pairwise.imp_of_mem (fun {a b} ha hb hab => ?_) (List.pairwise_mergeSort
    (List.zipIdxLE_trans fun _ _ _ => by simpa using Nat.le_trans)
    (List.zipIdxLE_total fun _ _ => by simpa using Nat.le_total _ _) _)
  obtain ⟨hi, hat⟩ := List.getElem?_eq_some_iff.1
    (List.mk_mem_zipIdx_iff_getElem?.1 (List.mem_mergeSort.1 ha))
  obtain ⟨hj, hbt⟩ := List.getElem?_eq_some_iff.1
    (List.mk_mem_zipIdx_iff_getElem?.1 (List.mem_mergeSort.1 hb))
  have hplace : a.2 ≤ b.2 → a.1.2 ≤ b.1.2 := by
    intro hle
    rcases Nat.lt_or_eq_of_le hle with hlt | heq
    · rw [← hat, ← hbt]
      exact List.pairwise_iff_getElem.1 h _ _ hi hj hlt
    · rw [← hat, ← hbt]
      simp only [heq, Nat.le_refl]
  simp only [List.zipIdxLE, decide_eq_true_eq] at hab
  unfold Precedes
  split at hab
  · split at hab
    · rename_i h₁ h₂
      exact .inr ⟨Nat.le_antisymm h₁ h₂, hplace (by simpa using hab)⟩
    · omega
  · simp at hab

/-- The places of sorted turns ascend if repetitions are dropped, provided that every place has a
turn at its `lowest` priority, and that these ascend with the places. -/
theorem pairwise_eraseDups (lowest : Nat → Nat) :
    ∀ {ts : List (Nat × Nat)}, ts.Pairwise Precedes →
      (∀ t ∈ ts, (lowest t.2, t.2) ∈ ts ∧ lowest t.2 ≤ t.1) →
      (∀ t ∈ ts, ∀ u ∈ ts, t.2 ≤ u.2 → lowest t.2 ≤ lowest u.2) →
      (ts.map Prod.snd).eraseDups.Pairwise (· < ·) := by
  intro ts
  induction hn : ts.length using Nat.strongRecOn generalizing ts with
  | _ n ih =>
    intro hsorted hlowest hmono
    cases ts with
    | nil => simp
    | cons t ts =>
      obtain ⟨ht, hsorted⟩ := List.pairwise_cons.1 hsorted
      have hfilter : (ts.map Prod.snd).filter (fun i => !i == t.2) =
          (ts.filter fun u => !u.2 == t.2).map Prod.snd := by
        rw [List.filter_map]
        rfl
      rw [List.map_cons, List.eraseDups_cons, hfilter, List.pairwise_cons]
      have hmem : ∀ {u}, u ∈ ts.filter (fun u => !u.2 == t.2) ↔ u ∈ ts ∧ u.2 ≠ t.2 := by simp
      -- the turn of another place at its lowest priority comes later
      have hlater : ∀ u ∈ ts, u.2 ≠ t.2 → (lowest u.2, u.2) ∈ ts := by
        intro u hu hne
        rcases List.mem_cons.1 (hlowest u (List.mem_cons_of_mem _ hu)).1 with heq | hmem
        · exact absurd (congrArg Prod.snd heq) hne
        · exact hmem
      refine ⟨fun i hi => ?_, ih _ ?_ rfl (hsorted.filter _) ?_ ?_⟩
      · obtain ⟨u, hu, rfl⟩ := List.mem_map.1 (List.mem_eraseDups.1 hi)
        obtain ⟨hu, hne⟩ := hmem.1 hu
        by_contra hge
        have hle : lowest u.2 ≤ lowest t.2 :=
          hmono u (List.mem_cons_of_mem _ hu) t List.mem_cons_self (Nat.le_of_not_lt hge)
        have hleast := (hlowest t List.mem_cons_self).2
        have hprec : Precedes t (lowest u.2, u.2) := ht _ (hlater u hu hne)
        unfold Precedes at hprec
        dsimp only at hprec
        omega
      · have hle := List.length_filter_le (fun u => !u.2 == t.2) ts
        simp only [List.length_cons] at hn
        omega
      · intro u hu
        obtain ⟨hu, hne⟩ := hmem.1 hu
        exact ⟨hmem.2 ⟨hlater u hu hne, hne⟩, (hlowest u (List.mem_cons_of_mem _ hu)).2⟩
      · intro u hu v hv
        exact hmono u (List.mem_cons_of_mem _ (hmem.1 hu).1) v
          (List.mem_cons_of_mem _ (hmem.1 hv).1)

/-- Nothing is dropped where nothing is repeated. -/
theorem eraseDups_of_nodup {xs : List Nat} (h : xs.Nodup) : xs.eraseDups = xs := by
  induction xs with
  | nil => rfl
  | cons x xs ih =>
    obtain ⟨hx, hxs⟩ := List.nodup_cons.1 h
    have hall : (xs.filter fun y => !y == x) = xs :=
      List.filter_eq_self.2 fun y hy => by simpa using ne_of_mem_of_not_mem hy hx
    rw [List.eraseDups_cons, hall, ih hxs]

/-! ## Turns and places -/

theorem mem_turns {p i : Nat} :
    (p, i) ∈ reg.turns ↔ ∃ r, reg[i]? = some r ∧ p ∈ r.options.priorities := by
  simp only [turns, List.mem_flatMap, List.mem_map, Prod.exists, Prod.mk.injEq,
    List.mk_mem_zipIdx_iff_getElem?]
  constructor
  · rintro ⟨r, j, hr, q, hq, rfl, rfl⟩
    exact ⟨r, hr, hq⟩
  · rintro ⟨r, hr, hp⟩
    exact ⟨r, i, hr, p, hp, rfl, rfl⟩

/-- Turns are listed place by place. -/
theorem pairwise_turns (reg : Registry κ ξ) : reg.turns.Pairwise fun a b => a.2 ≤ b.2 := by
  have hplaces : (List.zipIdx reg).Pairwise fun a b => a.2 ≤ b.2 := by
    rw [← List.pairwise_map (f := Prod.snd) (R := (· ≤ ·)), List.zipIdx_map_snd]
    exact (List.pairwise_lt_range' (s := 0)).imp Nat.le_of_lt
  refine List.pairwise_flatMap.2 ⟨fun a _ => ?_, hplaces.imp fun hab => ?_⟩
  · exact List.pairwise_map.2 (List.pairwise_of_forall fun _ _ => Nat.le_refl _)
  · rintro x hx y hy
    obtain ⟨_, -, rfl⟩ := List.mem_map.1 hx
    obtain ⟨_, -, rfl⟩ := List.mem_map.1 hy
    exact hab

/-- Has what is registered at the place a priority? -/
def isPrioritizedAt (reg : Registry κ ξ) (i : Nat) : Bool := reg[i]?.any (·.isPrioritized)

theorem mem_map_snd_turns {i : Nat} :
    i ∈ reg.turns.map Prod.snd ↔ reg.isPrioritizedAt i = true := by
  constructor
  · intro hi
    obtain ⟨⟨p, i⟩, ht, rfl⟩ := List.mem_map.1 hi
    obtain ⟨r, hr, hp⟩ := mem_turns.1 ht
    simpa [isPrioritizedAt, hr] using Registration.isPrioritized_iff.2 ⟨p, hp⟩
  · intro hi
    obtain ⟨r, hr, hprio⟩ := (Option.any_eq_true _ _).1 hi
    obtain ⟨p, hp⟩ := Registration.isPrioritized_iff.1 hprio
    exact List.mem_map.2 ⟨(p, i), mem_turns.2 ⟨r, hr, hp⟩, rfl⟩

theorem lt_of_isPrioritizedAt {i : Nat} (h : reg.isPrioritizedAt i = true) :
    i < List.length reg := by
  obtain ⟨r, hr, -⟩ := (Option.any_eq_true _ _).1 h
  exact (List.getElem?_eq_some_iff.1 hr).1

/-- Registrations are visited by ascending key. -/
def IsSorted (reg : Registry κ ξ) : Prop :=
  List.Pairwise (fun a b => a.sortKey ≤ b.sortKey) reg

/-- The priorities of every registration are a set. -/
def IsProper (reg : Registry κ ξ) : Prop := ∀ r ∈ reg, r.options.IsProper

/-- The turns in the order in which startup takes them. -/
def sortedTurns (reg : Registry κ ξ) : List (Nat × Nat) :=
  reg.turns.mergeSort fun a b => a.1 ≤ b.1

theorem mem_sortedTurns {p i : Nat} :
    (p, i) ∈ reg.sortedTurns ↔ ∃ r, reg[i]? = some r ∧ p ∈ r.options.priorities :=
  List.mem_mergeSort.trans mem_turns

theorem mem_map_snd_sortedTurns {i : Nat} :
    i ∈ reg.sortedTurns.map Prod.snd ↔ reg.isPrioritizedAt i = true :=
  ((List.mergeSort_perm _ _).map _).mem_iff.trans mem_map_snd_turns

/-- Places with a priority come up for the first time in the order of visits. -/
theorem pairwise_sortedTurns (hsorted : reg.IsSorted) (hproper : reg.IsProper) :
    (reg.sortedTurns.map Prod.snd).eraseDups.Pairwise (· < ·) := by
  let lowest (i : Nat) : Nat := reg[i]?.elim 0 (·.sortKey)
  have hlow : ∀ {i : Nat} {r : Registration κ ξ}, reg[i]? = some r → lowest i = r.sortKey :=
    fun hr => by simp [lowest, hr]
  refine pairwise_eraseDups lowest (precedes_mergeSort (pairwise_turns reg)) ?_ ?_
  · rintro ⟨p, i⟩ ht
    obtain ⟨r, hr, hp⟩ := mem_sortedTurns.1 ht
    obtain ⟨hkey, hle⟩ := RegisterOptions.sortKey_le (hproper r (List.mem_of_getElem? hr)) hp
    rw [hlow hr]
    exact ⟨mem_sortedTurns.2 ⟨r, hr, hkey⟩, hle⟩
  · rintro ⟨p, i⟩ ht ⟨q, j⟩ hu (hij : i ≤ j)
    obtain ⟨r, hr, -⟩ := mem_sortedTurns.1 ht
    obtain ⟨r', hr', -⟩ := mem_sortedTurns.1 hu
    show lowest i ≤ lowest j
    rw [hlow hr, hlow hr']
    obtain ⟨hi, rfl⟩ := List.getElem?_eq_some_iff.1 hr
    obtain ⟨hj, rfl⟩ := List.getElem?_eq_some_iff.1 hr'
    rcases Nat.lt_or_eq_of_le hij with hlt | rfl
    · exact List.pairwise_iff_getElem.1 hsorted _ _ hi hj hlt
    · exact Nat.le_refl _

theorem eraseDups_sortedTurns (hsorted : reg.IsSorted) (hproper : reg.IsProper) :
    (reg.sortedTurns.map Prod.snd).eraseDups =
      (List.range (List.length reg)).filter reg.isPrioritizedAt := by
  have hascending := pairwise_sortedTurns hsorted hproper
  have hrange : ((List.range (List.length reg)).filter reg.isPrioritizedAt).Pairwise (· < ·) :=
    List.pairwise_lt_range.filter _
  refine List.Perm.eq_of_pairwise (fun a b _ _ hab hba => absurd hab (Nat.lt_asymm hba))
    hascending hrange ((List.perm_ext_iff_of_nodup (hascending.imp Nat.ne_of_lt)
      (hrange.imp Nat.ne_of_lt)).2 fun i => ?_)
  rw [List.mem_eraseDups, mem_map_snd_sortedTurns, List.mem_filter, List.mem_range]
  exact ⟨fun h => ⟨lt_of_isPrioritizedAt h, h⟩, And.right⟩

/-- The places that startup goes through are those with a priority, in order, and then the
others. -/
theorem places_eq (hsorted : reg.IsSorted) (hproper : reg.IsProper) :
    reg.places = (List.range (List.length reg)).filter reg.isPrioritizedAt ++
      (List.range (List.length reg)).filter fun i => !reg.isPrioritizedAt i := by
  have hrest : (List.range (List.length reg)).removeAll (reg.sortedTurns.map Prod.snd) =
      (List.range (List.length reg)).filter fun i => !reg.isPrioritizedAt i := by
    refine List.filter_congr fun i _ => ?_
    rw [List.elem_eq_mem]
    congr 1
    have hmem : i ∈ reg.sortedTurns.map Prod.snd ↔ reg.isPrioritizedAt i = true :=
      mem_map_snd_sortedTurns
    exact Bool.eq_iff_iff.2 (by simpa using hmem)
  have hnodup : ((List.range (List.length reg)).filter fun i => !reg.isPrioritizedAt i).Nodup :=
    List.nodup_range.filter _
  show (reg.sortedTurns.map Prod.snd ++ List.range (List.length reg)).eraseDups = _
  rw [List.eraseDups_append, eraseDups_sortedTurns hsorted hproper, hrest,
    eraseDups_of_nodup hnodup]

/-- To go through the places of certain elements is to go through these elements. -/
theorem filterMap_range {α β : Type} (q : α → Bool) (f : α → β) (xs : List α) :
    ((List.range xs.length).filter fun i => xs[i]?.any q).filterMap (fun i => xs[i]?.map f) =
      (xs.filter q).map f := by
  induction xs with
  | nil => rfl
  | cons x xs ih =>
    rw [List.length_cons, List.range_succ_eq_map, List.filter_cons, List.filter_map,
      List.filter_cons]
    have hnext : (((List.range xs.length).filter
        ((fun i => ((x :: xs)[i]?).any q) ∘ Nat.succ)).map Nat.succ).filterMap
          (fun i => ((x :: xs)[i]?).map f) = (xs.filter q).map f := by
      rw [List.filterMap_map, ← ih]
      simp [Function.comp_def]
    cases hq : q x <;> simp [hq, hnext]

/-! ## The schedule -/

/-- Startup comes first to what has a priority, as visited, and then to the rest, as visited. -/
theorem schedule_eq (hsorted : reg.IsSorted) (hproper : reg.IsProper) :
    reg.schedule = (List.filter (·.isPrioritized) reg ++
      List.filter (fun r => !r.isPrioritized) reg).map (·.entry) := by
  have hrest : ((List.range (List.length reg)).filter fun i => !reg.isPrioritizedAt i) =
      (List.range (List.length reg)).filter
        fun i => reg[i]?.any fun r : Registration κ ξ => !r.isPrioritized := by
    refine List.filter_congr fun i hi => ?_
    simp [isPrioritizedAt, List.getElem?_eq_getElem (List.mem_range.1 hi)]
  rw [schedule, places_eq hsorted hproper, hrest, List.filterMap_append, List.map_append,
    ← filterMap_range, ← filterMap_range]
  rfl

theorem tickets_schedule (hsorted : reg.IsSorted) (hproper : reg.IsProper) :
    reg.schedule.map (·.ticket) = (List.filter (·.isPrioritized) reg ++
      List.filter (fun r => !r.isPrioritized) reg).map (·.ticket) := by
  rw [schedule_eq hsorted hproper, List.map_map]
  rfl

/-- Nothing without a priority is visited before something that has one. -/
def PrioritizedFirst (reg : Registry κ ξ) : Prop :=
  List.Pairwise (fun a b => b.isPrioritized = true → a.isPrioritized = true) reg

instance (reg : Registry κ ξ) : Decidable reg.PrioritizedFirst :=
  inferInstanceAs (Decidable (List.Pairwise _ reg))

/-- Two lists are the same if that can be seen by what tells their members apart. -/
theorem eq_of_map_eq {α β : Type} {f : α → β} :
    ∀ {xs ys : List α}, (∀ a ∈ xs, ∀ b ∈ ys, f a = f b → a = b) → xs.map f = ys.map f → xs = ys
  | [], ys, _, h => (List.map_eq_nil_iff.1 h.symm).symm
  | x :: xs, [], _, h => by simp at h
  | x :: xs, y :: ys, hinj, h => by
    obtain ⟨hxy, hxys⟩ := List.cons_eq_cons.1 h
    have htail : xs = ys :=
      eq_of_map_eq (fun a ha b hb => hinj a (List.mem_cons_of_mem _ ha) b
        (List.mem_cons_of_mem _ hb)) hxys
    rw [hinj x List.mem_cons_self y List.mem_cons_self hxy, htail]

theorem filter_append_eq_iff {α : Type} {q : α → Bool} {xs : List α} :
    xs.filter q ++ xs.filter (fun x => !q x) = xs ↔
      xs.Pairwise fun a b => q b = true → q a = true := by
  constructor
  · intro heq
    rw [← heq]
    have hall : ∀ a ∈ xs.filter q, q a = true := fun a ha => (List.mem_filter.1 ha).2
    have hnone : ∀ b ∈ xs.filter (fun x => !q x), q b = false := fun b hb => by
      simpa using (List.mem_filter.1 hb).2
    refine List.pairwise_append.2 ⟨?_, ?_, fun a ha _ _ _ => hall a ha⟩
    · exact List.Pairwise.imp_of_mem (fun ha _ _ _ => hall _ ha) (List.pairwise_of_forall
        (R := fun _ _ => True) fun _ _ => trivial)
    · exact List.Pairwise.imp_of_mem (fun _ hb _ hq => by simp [hnone _ hb] at hq)
        (List.pairwise_of_forall (R := fun _ _ => True) fun _ _ => trivial)
  · intro h
    induction xs with
    | nil => rfl
    | cons x xs ih =>
      obtain ⟨hx, hxs⟩ := List.pairwise_cons.1 h
      cases hq : q x with
      | true => simpa [hq] using ih hxs
      | false =>
        have hnone : ∀ b ∈ xs, q b = false := fun b hb =>
          Bool.eq_false_iff.2 fun hb' => by simp [hx b hb hb'] at hq
        have hnil : xs.filter q = [] := List.filter_eq_nil_iff.2 fun b hb => by simp [hnone b hb]
        have hself : xs.filter (fun x => !q x) = xs :=
          List.filter_eq_self.2 fun b hb => by simp [hnone b hb]
        simp [hq, hnil, hself]

/-- Startup goes by the order of visits exactly if nothing without a priority is visited before
something that has one. -/
theorem schedule_eq_iff (hsorted : reg.IsSorted) (hproper : reg.IsProper)
    (hnodup : (List.map (·.ticket) reg).Nodup) :
    reg.schedule.map (·.ticket) = List.map (·.ticket) reg ↔ reg.PrioritizedFirst := by
  rw [tickets_schedule hsorted hproper, PrioritizedFirst, ← filter_append_eq_iff]
  refine ⟨eq_of_map_eq fun a ha b hb => List.inj_on_of_nodup_map hnodup ?_ hb,
    fun heq => congrArg (List.map (·.ticket)) heq⟩
  rcases List.mem_append.1 ha with ha | ha <;> exact (List.mem_filter.1 ha).1

/-- Priorities below the default one put everything that has one first. -/
theorem prioritizedFirst_of_lt (hsorted : reg.IsSorted)
    (hlow : ∀ r ∈ reg, r.isPrioritized = true → r.sortKey < RegisterOptions.defaultPriority) :
    reg.PrioritizedFirst := by
  refine List.Pairwise.imp_of_mem (fun {a b} _ hb hab hprio => ?_) hsorted
  by_contra hno
  have hkey := Registration.sortKey_of_unprioritized (Bool.eq_false_iff.2 hno)
  have hlt := hlow b hb hprio
  omega

end Registry

end Overseer
