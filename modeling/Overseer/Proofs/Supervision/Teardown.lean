import Overseer.Proofs.Supervision.Courses

/-!
# One teardown for each stay

A set tells the outside to call the `destroy` of a task when a stay of the task ends
(`endings`), and when a late registration is refused although its `init` has succeeded
(`lateRefusal?`). `tearsDown_of_run` says that it does so exactly once for each, in the event in
which it happens, and never else.

`Task::destroy` is documented as being called when the task leaves its supervisor. A late
registration that loses against another registration of the same task breaks that: its task is
registered, and stays so, when the set has it destroyed. `tearsDown_of_run` says that this is the
only way to break it, and `destroyed_while_registered` is a run that does.
-/

namespace Overseer

variable {κ ξ : Type}

/-- The registrations of a task, in a registry in which no task occurs twice. -/
theorem Registry.filter_id {reg : Registry κ ξ} {id : TaskId} {r : Registration κ ξ}
    (hn : (List.map (·.task.id) reg).Nodup) (h : reg.lookup? id = some r) :
    List.filter (fun a => a.task.id == id) reg = [r] := by
  induction reg with
  | nil => simp [Registry.lookup?] at h
  | cons a reg ih =>
    obtain ⟨ha, hn⟩ := List.nodup_cons.1 hn
    by_cases hid : a.task.id = id
    · have hrest : List.filter (fun a => a.task.id == id) reg = [] := by
        refine List.filter_eq_nil_iff.2 fun b hb => ?_
        have hne : b.task.id ≠ id := fun hb' => ha (List.mem_map.2 ⟨b, hb, hb'.trans hid.symm⟩)
        simpa using hne
      have har : a = r := by simpa [Registry.lookup?, hid] using h
      rw [List.filter_cons_of_pos (by simpa using hid), hrest, har]
    · rw [List.filter_cons_of_neg (by simpa using hid)]
      exact ih hn (by simpa [Registry.lookup?, hid] using h)

namespace TaskSet

variable {s t u : TaskSet κ ξ} {us : List CallId} {d : Option Deed}

/-- The stays of a set that have ended when it has become another. -/
def endings (s t : TaskSet κ ξ) : List Stay := s.stays.filter fun x => !t.tickets.contains x.1

theorem endings_eq_nil (h : ∀ k ∈ s.tickets, k ∈ t.tickets) : endings s t = [] := by
  refine List.filter_eq_nil_iff.2 fun x hx => ?_
  have hk : x.1 ∈ s.tickets := by
    rw [tickets_eq_map_stays]
    exact List.mem_map_of_mem hx
  simpa using h _ hk

theorem endings_of_empty (h : t.registry = []) : endings s t = s.stays := by
  refine List.filter_eq_self.2 fun x _ => ?_
  simp [tickets, h]

theorem endings_of_remove (hs : Sound us s) {id : TaskId} {r : Registration κ ξ}
    (hr : s.registry.lookup? id = some r) (ht : t.registry = s.registry.remove id) :
    endings s t = [r.stay] := by
  have hleft : ∀ a ∈ s.registry, (!t.tickets.contains a.ticket) = (a.task.id == id) := by
    intro a ha
    by_cases hid : a.task.id = id
    · have hk : a.ticket ∉ t.tickets := by
        intro hk
        obtain ⟨b, hb, hba⟩ := mem_tickets.1 hk
        rw [ht] at hb
        obtain ⟨hb, hne⟩ := Registry.mem_remove.1 hb
        exact hne (List.inj_on_of_nodup_map hs.tickets hb ha hba ▸ hid)
      simp [hid, hk]
    · have hk : a.ticket ∈ t.tickets :=
        mem_tickets.2 ⟨a, ht ▸ Registry.mem_remove.2 ⟨ha, hid⟩, rfl⟩
      simp [hid, hk]
  unfold endings stays
  rw [List.filter_map]
  have hfilter := List.filter_congr hleft
  rw [Registry.filter_id hs.tasks hr] at hfilter
  exact congrArg (List.map (·.stay)) hfilter

/-! ## What moves and courses do -/

/-- The tasks that a deed tears down. -/
def torn (d : Option Deed) : List TaskRef :=
  d.elim [] fun d => d.left.map Prod.snd ++ d.refused?.toList

/-- A move without a deed ends no stay and tears nothing down. -/
theorem Move.quiet (h : Move s none t) : t.stays = s.stays ∧ t.tornDown = s.tornDown := by
  cases h with
  | goesOn h => exact ⟨h.stays, by simpa using h.tornDown⟩
  | marks id => exact ⟨Registry.map_modify fun _ => rfl, rfl⟩
  | starts p hc hl => exact (startLoops_same _ _).2.2
  | _ => exact ⟨rfl, rfl⟩

theorem Course.quiet (h : Course s none t) : t.stays = s.stays ∧ t.tornDown = s.tornDown := by
  generalize hd : (none : Option Deed) = d at h
  induction h with
  | stays s => exact ⟨rfl, rfl⟩
  | quietly hm _ ih => exact ⟨(ih hd).1.trans hm.quiet.1, (ih hd).2.trans hm.quiet.2⟩
  | does _ _ _ => contradiction

/-- A deed ends the stays that it names, and tears down their tasks and what it refuses. -/
theorem Move.effect {d : Deed} (h : Move s (some d) t) (hs : Sound us s) :
    endings s t = d.left ∧ t.tornDown = s.tornDown ++ torn (some d) := by
  cases h with
  | comesLate hc hu => exact ⟨endings_eq_nil fun _ h => h, (List.append_nil _).symm⟩
  | prepares hc hl => exact ⟨endings_eq_nil fun _ h => h, (List.append_nil _).symm⟩
  | @enrolls c p r hc hp hr =>
    obtain ⟨-, -, htorn, hticks⟩ := enroll_same s r c
    exact ⟨endings_eq_nil fun k hk => (hticks k).2 (Or.inr hk),
      htorn.trans (List.append_nil _).symm⟩
  | refuses hc h =>
    refine ⟨endings_eq_nil fun k hk => ?_, h.tornDown⟩
    rw [tickets, h.registry]
    exact hk
  | removes way id hr hw h _ => exact ⟨endings_of_remove hs hr h.registry, h.tornDown⟩
  | displaces id hr hl h => exact ⟨endings_of_remove hs hr h.registry, h.tornDown⟩
  | demolishes h _ =>
    refine ⟨endings_of_empty h.registry, h.tornDown.trans ?_⟩
    simp [torn, Deed.left, Deed.refused?, stays, Registration.stay, Registry.tasks, tornDown]
  | drops hc h _ =>
    refine ⟨endings_of_empty h.registry, h.tornDown.trans ?_⟩
    simp [torn, Deed.left, Deed.refused?, stays, Registration.stay, Registry.tasks, tornDown]

theorem Course.effect (h : Course s d t) :
    Sound us s → endings s t = d.elim [] (·.left) ∧ t.tornDown = s.tornDown ++ torn d := by
  induction h with
  | stays s => exact fun _ => ⟨endings_eq_nil fun _ h => h, (List.append_nil _).symm⟩
  | @quietly s t u d hm _ ih =>
    intro hs
    obtain ⟨hend, htorn⟩ := ih (hm.sound hs)
    refine ⟨?_, by rw [htorn, hm.quiet.2]⟩
    rw [← hend, endings, endings, hm.quiet.1]
  | @does s t u d hm hc _ =>
    intro hs
    obtain ⟨hend, htorn⟩ := hm.effect hs
    refine ⟨?_, by rw [hc.quiet.2, htorn]⟩
    rw [Option.elim_some, ← hend, endings, endings, tickets_eq_map_stays, tickets_eq_map_stays,
      hc.quiet.1]

/-! ## Histories -/

variable {h : List (SetOccurrence κ ξ)} {o : SetOccurrence κ ξ}

theorem notices_of_run (hrun : (setSystem κ ξ).Run h s) : s.notices = [] := by
  cases hrun with
  | start hs =>
    obtain ⟨name, pool, rfl⟩ := hs
    rfl
  | next _ _ => rfl

theorem stays_entered (s : TaskSet κ ξ) (e : SetEvent κ ξ) :
    (s.entered e).stays = s.stays ∧ (s.entered e).tornDown = s.tornDown := by
  cases e <;> exact ⟨rfl, rfl⟩

theorem lifecycle_entered (s : TaskSet κ ξ) (e : SetEvent κ ξ) :
    (s.entered e).lifecycle = s.lifecycle := by
  cases e <;> rfl

/-- An occurrence ends the stays that its deed names. -/
theorem endings_of_course (h : Course (o.before.entered o.event) d (o.before.perform o.event).1)
    (hs : Sound us (o.before.entered o.event)) :
    endings o.before ((setSystem κ ξ).after o) = d.elim [] (·.left) := by
  rw [← (h.effect hs).1, endings, endings, (stays_entered o.before o.event).1]
  rfl

/-- The tasks whose `destroy` an occurrence calls. -/
def tearsDown (o : SetOccurrence κ ξ) : List TaskRef :=
  ((setSystem κ ξ).shows o).1.filterMap SetNotice.tornDown?

/-- An occurrence has each task whose stay ends destroyed once, and a late registration that it
refuses while the task is not registered. It has no task destroyed whose stay goes on. -/
structure TearsDownOnce (o : SetOccurrence κ ξ) : Prop where
  once : (tearsDown o).Perm ((endings o.before ((setSystem κ ξ).after o)).map Prod.snd ++
    ((o.before.lateRefusal? o.event).filter fun task => !o.before.registry.has task.id).toList)
  spares : ∀ task ∈ tearsDown o, ∀ x ∈ o.before.stays, x ∈ ((setSystem κ ξ).after o).stays →
    x.2.id ≠ task.id

theorem tearsDown_eq (hrun : (setSystem κ ξ).Run h s) (ho : o ∈ h) :
    tearsDown o = (endings o.before ((setSystem κ ξ).after o)).map Prod.snd ++
      (o.before.lateRefusal? o.event).toList := by
  obtain ⟨pre, hpre, hall, -⟩ := hrun.of_mem ho
  have hs := sound_of_run hpre
  obtain ⟨d, hcourse, htells⟩ := course_of_perform hs hall
  have htorn := (hcourse.effect (hs.entered hall)).2
  have hbefore : o.before.tornDown = [] := by simp [tornDown, notices_of_run hpre]
  rw [(stays_entered o.before o.event).2, hbefore, List.nil_append] at htorn
  rw [endings_of_course hcourse (hs.entered hall), htells.refused]
  refine htorn.trans ?_
  cases d <;> rfl

/-- The stay of a task that is registered goes on or ends. -/
theorem not_mem_stays_of_endings (hs : Sound us s) {x y : Stay} (hx : x ∈ endings s t)
    (hy : y ∈ s.stays) (hid : y.2.id = x.2.id) : y ∉ t.stays := by
  obtain ⟨hx, hgone⟩ := List.mem_filter.1 hx
  obtain ⟨a, ha, rfl⟩ := List.mem_map.1 hx
  obtain ⟨b, hb, rfl⟩ := List.mem_map.1 hy
  obtain rfl := Registry.eq_of_id hs.tasks hb ha hid
  intro hmem
  have hk : b.ticket ∈ t.tickets := by
    rw [tickets_eq_map_stays]
    exact List.mem_map_of_mem (f := Prod.fst) hmem
  simp [Registration.stay, hk] at hgone

/-- A late registration that loses to a registration of its own task breaks the promise. -/
theorem not_tearsDownOnce (hrun : (setSystem κ ξ).Run h s) (ho : o ∈ h) {task : TaskRef}
    (htask : o.before.lateRefusal? o.event = some task)
    (hhas : o.before.registry.has task.id = true) : ¬TearsDownOnce o := by
  intro hgood
  have hlen := hgood.once.length_eq
  simp [tearsDown_eq hrun ho, htask, Option.filter, hhas] at hlen

/-- Each stay that ends is torn down once, and so is each late registration that is refused.
That is what it should be exactly if the task of such a registration is not registered. -/
theorem tearsDown_of_run (hrun : (setSystem κ ξ).Run h s) (ho : o ∈ h) :
    tearsDown o = (endings o.before ((setSystem κ ξ).after o)).map Prod.snd ++
        (o.before.lateRefusal? o.event).toList ∧
      (TearsDownOnce o ↔ ∀ task, o.before.lateRefusal? o.event = some task →
        o.before.registry.has task.id = false) := by
  have heq := tearsDown_eq hrun ho
  obtain ⟨pre, hpre, -, -⟩ := hrun.of_mem ho
  have hs := sound_of_run hpre
  refine ⟨heq, fun hgood task htask => ?_, fun hfree => ⟨?_, ?_⟩⟩
  · exact Bool.eq_false_iff.2 fun hhas => not_tearsDownOnce hrun ho htask hhas hgood
  · rw [heq]
    cases htask : o.before.lateRefusal? o.event with
    | none => exact .refl _
    | some task => simp [Option.filter, hfree task htask]
  · intro task htask x hx hstays
    rw [heq, List.mem_append] at htask
    rcases htask with htask | htask
    · obtain ⟨y, hy, rfl⟩ := List.mem_map.1 htask
      exact fun hid => not_mem_stays_of_endings hs hy hx hid hstays
    · obtain ⟨a, ha, rfl⟩ := List.mem_map.1 hx
      exact Registry.has_eq_false.1 (hfree task (Option.mem_toList.1 htask)) a ha

/-- A task that is registered and unregistered is destroyed once. -/
theorem tearsDown_of_run_unregister : ∃ (h : List (SetOccurrence Unit Unit)) (s : TaskSet Unit Unit)
    (o : SetOccurrence Unit Unit), (setSystem Unit Unit).Run h s ∧ o ∈ h ∧
      endings o.before ((setSystem Unit Unit).after o) ≠ [] ∧
      tearsDown o = (endings o.before ((setSystem Unit Unit).after o)).map Prod.snd ++
        (o.before.lateRefusal? o.event).toList ∧
      (TearsDownOnce o ↔ ∀ task, o.before.lateRefusal? o.event = some task →
        o.before.registry.has task.id = false) := by
  obtain ⟨h, s, hrun, hcheck⟩ := System.exists_run_of_replay (S := setSystem Unit Unit)
    (starts_new "s" none)
    [.begin 0 (.register ⟨0, "a"⟩ [] {} none ()) false, .unregister ⟨0, "a"⟩]
    (fun h _ => h.any fun o => !(endings o.before ((setSystem Unit Unit).after o)).isEmpty)
    (by decide +kernel)
  obtain ⟨o, ho, hend⟩ := List.any_eq_true.1 hcheck
  exact ⟨h, s, o, hrun, ho, by simpa using hend, tearsDown_of_run hrun ho⟩

/-- A task is registered late twice at a time. The second registration loses, and the task is
destroyed while it is registered. -/
theorem destroyed_while_registered : ¬ ∀ (h : List (SetOccurrence Unit Unit))
    (s : TaskSet Unit Unit), (setSystem Unit Unit).Run h s → ∀ o ∈ h, TearsDownOnce o := by
  obtain ⟨h, s, hrun, hcheck⟩ := System.exists_run_of_replay (S := setSystem Unit Unit)
    (starts_new "s" none)
    [.begin 0 .init false, .begin 1 (.register ⟨0, "a"⟩ [] {} none ()) false,
      .begin 2 (.register ⟨0, "a"⟩ [] {} none ()) false, .initialized 1 (.ok ()) false,
      .initialized 2 (.ok ()) false]
    (fun h _ => h.any fun o => (o.before.lateRefusal? o.event).any fun task =>
      o.before.registry.has task.id) (by decide +kernel)
  intro hall
  obtain ⟨o, ho, hlate⟩ := List.any_eq_true.1 hcheck
  obtain ⟨task, htask, hhas⟩ := (Option.any_eq_true _ _).1 hlate
  exact not_tearsDownOnce hrun ho htask hhas (hall h s hrun o ho)

end TaskSet

end Overseer
