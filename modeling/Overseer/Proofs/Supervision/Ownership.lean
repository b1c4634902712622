import Overseer.Proofs.Supervision.Stays

/-!
# Loops and their registrations

A loop polls for the registration for which it was started, and what stops that registration
stops the loop (`housed_of_run`). A loop that fails looks for its registration by the task alone.
If the task has been unregistered during the run and registered again, it finds the registration
of the new stay and takes that out of the registry, without stopping the loop of the new stay.

`owner_of_run` says that nothing else goes wrong. A live loop has its registration unless that
has been thrown out by the loop of another stay (`displacements`), and a loop that fails after its
registration has left does something exactly if it throws out another.
`stale_failure_displaces` is a run in which it does.
-/

namespace Overseer

/-- The stay for which a loop polls. -/
def Loop.stay (x : Loop) : Stay := (x.ticket, x.task)

theorem Loop.Follows.stay {x y : Loop} (h : y.Follows x) : y.stay = x.stay :=
  Prod.ext h.ticket h.task

namespace TaskSet

variable {κ ξ : Type} {s t : TaskSet κ ξ} {us out : List CallId} {past : List Stay}
  {d : Option Deed} {k c : CallId}

/-- Every live loop has a registration, or is one of some loops whose registrations are gone. -/
def Strays (ks : List CallId) (s : TaskSet κ ξ) : Prop :=
  ∀ x ∈ s.loops, x.isLive = true → x.ticket ∈ s.tickets ∨ x.ticket ∈ ks

/-- Every loop polls for a stay that goes on, or for one of some that are over. A loop that polls
for one of these is live only if its registration was thrown out. -/
def Housed (past : List Stay) (out : List CallId) (s : TaskSet κ ξ) : Prop :=
  ∀ x ∈ s.loops, x.stay ∈ s.stays ∨ x.stay ∈ past ∧ (x.isLive = true → x.ticket ∈ out)

theorem Housed.strays (hh : Housed past out s) : Strays out s := by
  intro x hx hlive
  refine (hh x hx).imp (fun hk => ?_) fun hover => hover.2 hlive
  rw [tickets_eq_map_stays]
  exact List.mem_map_of_mem (f := Prod.fst) hk

theorem Housed.goesOn {torn : List TaskRef} (hh : Housed past out s) (h : GoesOn torn s t) :
    Housed past out t := by
  intro y hy
  obtain ⟨x, hx, hyx⟩ := h.loops y hy
  rw [hyx.stay, hyx.ticket, h.stays]
  exact (hh x hx).imp_right fun hover => ⟨hover.1, fun hlive => hover.2 (hyx.live hlive)⟩

/-- A loop that starts polls for what is registered. -/
theorem Housed.startLoop (hh : Housed past out s) (id : TaskId) :
    Housed past out (s.startLoop id) := by
  cases h : s.registry.lookup? id with
  | none => simpa [TaskSet.startLoop, h] using hh
  | some r =>
    intro x hx
    rw [(startLoop_same s id).2.2.1]
    rw [startLoop_eq h] at hx
    rcases List.mem_append.1 hx with hx | hx
    · exact hh x hx
    · obtain rfl := List.mem_singleton.1 hx
      exact Or.inl (List.mem_map_of_mem (f := Registration.stay) (Registry.mem_of_lookup? h))

theorem Housed.startLoops (ids : List TaskId) : ∀ {s : TaskSet κ ξ}, Housed past out s →
    Housed past out (ids.foldl TaskSet.startLoop s) := by
  induction ids with
  | nil => exact fun h => h
  | cons id ids ih => exact fun h => ih (h.startLoop id)

theorem Housed.enroll (hh : Housed past out s) (r : Registration κ ξ) (c : CallId) :
    Housed past out ((s.enroll r).without c) := by
  obtain ⟨t, hgo, heq⟩ := enroll_without s r c
  have hadmitted : Housed past out (s.admitted r c) := fun x hx =>
    (hh x hx).imp_left fun hk =>
      List.map_subset _ (fun _ ha => Registry.mem_insert.2 (Or.inr ha)) hk
  rw [heq]
  split
  · exact (hadmitted.goesOn hgo).startLoop _
  · exact hadmitted.goesOn hgo

/-- The loops of what leaves the registry have been stopped, or it is thrown out. -/
theorem Housed.leave (hh : Housed past out s) (hs : Sound us s) {torn : List TaskRef}
    {reg : Registry κ ξ} {gone : List Stay} {ks : List CallId} {lc : Lifecycle} {dr : Bool}
    (h : GoesOn torn { s with registry := reg, lifecycle := lc, dropped := dr } t)
    (hgone : ∀ a ∈ s.registry,
      a ∈ reg ∨ a.stay ∈ gone ∧ (a.ticket ∈ ks ∨ t.IsHalted a.loop)) :
    Housed (past ++ gone) (out ++ ks) t := by
  intro y hy
  obtain ⟨x, hx, hyx⟩ := h.loops y hy
  rw [hyx.stay, hyx.ticket, h.stays, List.mem_append, List.mem_append]
  rcases hh x hx with hk | hover
  · obtain ⟨a, ha, hak⟩ := List.mem_map.1 hk
    have hticket : a.ticket = x.ticket := congrArg Prod.fst hak
    rcases hgone a ha with ha | ⟨hleft, hstopped⟩
    · exact Or.inl (List.mem_map.2 ⟨a, ha, hak⟩)
    · refine Or.inr ⟨Or.inr (hak ▸ hleft), fun hlive => Or.inr ?_⟩
      refine hticket ▸ hstopped.resolve_right fun hhalt => ?_
      have hown := hs.owner a ha x hx hticket.symm
      rw [hyx.id.symm] at hown
      simp [hhalt y hy hown] at hlive
  · exact Or.inr ⟨Or.inl hover.1, fun hlive => Or.inl (hover.2 (hyx.live hlive))⟩

/-- Every move leaves loops with their stays, but for those that it ends, and stops the loops of
these, but for what it throws out. -/
theorem Move.housed (h : Move s d t) (hs : Sound us s) (hh : Housed past out s) :
    Housed (past ++ d.elim [] (·.left)) (out ++ (d.bind (·.displaced?)).toList) t := by
  have hsame : ∀ {u : TaskSet κ ξ}, Housed past out u → Housed (past ++ []) (out ++ []) u :=
    fun h => by simpa using h
  cases h with
  | goesOn h => exact hsame (hh.goesOn h)
  | marks id =>
    have hstays := (Move.marks s id).quiet.1
    refine hsame fun x hx => ?_
    rw [hstays]
    exact hh x hx
  | starts p hc hl => exact hsame (Housed.startLoops _ hh)
  | enrolls hc hp hr => exact hsame (hh.enroll _ _)
  | refuses hc h => exact hsame (Housed.goesOn (s := s.without _) hh h)
  | removes way id hr hw h hhalt =>
    refine hh.leave hs h fun a ha => ?_
    rcases Registry.mem_remove_or_eq hs.tasks hr ha with ha | rfl
    · exact Or.inl ha
    · exact Or.inr ⟨List.mem_singleton_self _, Or.inr hhalt⟩
  | displaces id hr hne h =>
    refine hh.leave hs h fun a ha => ?_
    rcases Registry.mem_remove_or_eq hs.tasks hr ha with ha | rfl
    · exact Or.inl ha
    · exact Or.inr ⟨List.mem_singleton_self _,
        Or.inl (by simp [Deed.displaced?, Registration.stay])⟩
  | demolishes h hhalt =>
    exact hh.leave hs h fun a ha => Or.inr ⟨List.mem_map_of_mem ha, Or.inr (hhalt a ha)⟩
  | drops hc h hhalt =>
    exact hh.leave hs h fun a ha => Or.inr ⟨List.mem_map_of_mem ha, Or.inr (hhalt a ha)⟩
  | _ => exact hsame hh

theorem Course.housed (h : Course s d t) : ∀ {past : List Stay} {out : List CallId}, Sound us s →
    Housed past out s →
    Housed (past ++ d.elim [] (·.left)) (out ++ (d.bind (·.displaced?)).toList) t := by
  induction h with
  | stays s => exact fun _ hh => by simpa using hh
  | quietly hm _ ih =>
    intro past out hs hh
    have hnext := hm.housed hs hh
    rw [Option.elim_none, Option.bind_none, Option.toList_none, List.append_nil,
      List.append_nil] at hnext
    exact ih (hm.sound hs) hnext
  | does hm _ ih =>
    intro past out hs hh
    have hlast := ih (hm.sound hs) (hm.housed hs hh)
    rwa [Option.elim_none, Option.bind_none, Option.toList_none, List.append_nil,
      List.append_nil] at hlast

/-! ## Histories -/

variable {h : List (SetOccurrence κ ξ)} {o : SetOccurrence κ ξ}

/-- The registrations that loops of other stays have thrown out. -/
def displacements (h : List (SetOccurrence κ ξ)) : List CallId :=
  h.filterMap fun o => o.before.displaced? o.event

/-- The stays that have ended. -/
def departures (h : List (SetOccurrence κ ξ)) : List Stay :=
  h.flatMap fun o => endings o.before ((setSystem κ ξ).after o)

theorem housed_of_run (hrun : (setSystem κ ξ).Run h s) :
    Housed (departures h) (displacements h) s := by
  induction hrun with
  | start hs =>
    obtain ⟨name, pool, rfl⟩ := hs
    exact fun x hx => absurd hx List.not_mem_nil
  | @next h s e hrun hall ih =>
    have hs := sound_of_run hrun
    obtain ⟨d, hcourse, htells⟩ := course_of_perform hs hall
    have hentered : Housed (departures h) (displacements h) (s.entered e) := by
      cases e <;> exact ih
    have hover : departures (h ++ [⟨s, e⟩]) = departures h ++ d.elim [] (·.left) := by
      simp [departures, endings_of_course (o := ⟨s, e⟩) hcourse (hs.entered hall)]
    have hout : displacements (h ++ [⟨s, e⟩]) =
        displacements h ++ (d.bind (·.displaced?)).toList := by
      rw [← htells.displaced]
      cases hd : s.displaced? e <;> simp [displacements, hd]
    rw [hover, hout]
    exact hcourse.housed (hs.entered hall) hentered

theorem strays_of_run (hrun : (setSystem κ ξ).Run h s) : Strays (displacements h) s :=
  (housed_of_run hrun).strays

/-- What is displaced leaves. -/
theorem endings_of_displaced (hrun : (setSystem κ ξ).Run h s) (ho : o ∈ h)
    (hk : o.before.displaced? o.event = some k) :
    ∃ x ∈ endings o.before ((setSystem κ ξ).after o), x.1 = k := by
  obtain ⟨pre, hpre, hall, -⟩ := hrun.of_mem ho
  have hs := sound_of_run hpre
  obtain ⟨d, hcourse, htells⟩ := course_of_perform hs hall
  rw [htells.displaced] at hk
  obtain ⟨d, rfl, hd⟩ := Option.bind_eq_some_iff.1 hk
  have hend : endings o.before ((setSystem κ ξ).after o) = d.left :=
    endings_of_course hcourse (hs.entered hall)
  cases d with
  | displace x => exact ⟨x, hend ▸ List.mem_singleton_self x, Option.some.inj hd⟩
  | _ => simp [Deed.displaced?] at hd

theorem hasLeft_of_displaced (hrun : (setSystem κ ξ).Run h s) (hk : k ∈ displacements h) :
    HasLeft h k := by
  obtain ⟨o, ho, hd⟩ := List.mem_filterMap.1 hk
  obtain ⟨x, hx, rfl⟩ := endings_of_displaced hrun ho hd
  exact hasLeft_of_ending ho hx

/-! ## Loops that fail too late -/

/-- Has a loop handed an error to its callback? -/
def SetAnswer.isReport : SetAnswer κ → Bool
  | .loop (.report _ _ _ _) => true
  | _ => false

/-- Has a run of a loop failed whose registration has left? -/
def isStaleFailure (o : SetOccurrence κ ξ) : Bool :=
  match o.event with
  | .ran l _ ending =>
    ending.isFailure && (o.before.loop? l).any fun x => !o.before.tickets.contains x.ticket
  | _ => false

/-- Nothing is removed, torn down or reported. -/
structure IsHarmless (o : SetOccurrence κ ξ) : Prop where
  stays : ((setSystem κ ξ).after o).stays = o.before.stays
  tearsDown : tearsDown o = []
  report : SetAnswer.isReport ((setSystem κ ξ).shows o).2 = false

/-- A loop that fails finds nothing to do if the set has been dropped or its task is not
registered. -/
theorem goesOn_ran {l : LoopId} {ending : Ending Unit} {x : Loop} {error : Fault}
    (hfail : ending.error? = some error) (hx : s.loop? l = some x)
    (h : s.dropped = true ∨ s.registry.lookup? x.task.id = none) (now : Nat) :
    GoesOn [] s (s.ran l now ending).1 ∧ (s.ran l now ending).2 = .ended := by
  have hwarned := goesOn_warned s error
  rw [ran_of_error? hx hfail]
  split
  · exact ⟨hwarned.then (goesOn_endLoop _ l), rfl⟩
  · rename_i hd
    have hnone : (s.warned error).registry.lookup? x.task.id = none := h.resolve_left hd
    unfold fail
    rw [hnone]
    exact ⟨(hwarned.then (goesOn_record _ _ _ _)).then (goesOn_endLoop _ l), rfl⟩

/-- A loop whose registration has left displaces what is registered of its task. -/
theorem displaced?_eq_none {l : LoopId} {now : Nat} {ending : Ending Unit} {x : Loop}
    (hfail : ending.isFailure = true) (hx : s.loop? l = some x) (hleft : x.ticket ∉ s.tickets) :
    s.displaced? (.ran l now ending) = none ↔
      s.dropped = true ∨ s.registry.lookup? x.task.id = none := by
  cases hd : s.dropped with
  | true => simp [displaced?, hd]
  | false =>
    cases hr : s.registry.lookup? x.task.id with
    | none => simp [displaced?, hd, hfail, hx, hr]
    | some r =>
      have hne : r.ticket ≠ x.ticket := fun hk =>
        hleft (mem_tickets.2 ⟨r, Registry.mem_of_lookup? hr, hk⟩)
      simp [displaced?, hd, hfail, hx, hr, hne]

theorem exists_of_isStaleFailure (h : isStaleFailure o = true) :
    ∃ l now ending x, o.event = .ran l now ending ∧ ending.isFailure = true ∧
      o.before.loop? l = some x ∧ x.ticket ∉ o.before.tickets := by
  unfold isStaleFailure at h
  split at h
  · rename_i l now ending he
    obtain ⟨hfail, hleft⟩ := Bool.and_eq_true_iff.1 h
    obtain ⟨x, hx, hleft⟩ := (Option.any_eq_true _ _).1 hleft
    exact ⟨l, now, ending, x, he, hfail, hx, by simpa using hleft⟩
  · contradiction

theorem isHarmless_iff (hrun : (setSystem κ ξ).Run h s) (ho : o ∈ h)
    (hstale : isStaleFailure o = true) :
    IsHarmless o ↔ o.before.displaced? o.event = none := by
  obtain ⟨s₀, e⟩ := o
  obtain ⟨l, now, ending, x, rfl, hfail, hx, hleft⟩ := exists_of_isStaleFailure hstale
  have htorn := tearsDown_eq hrun ho
  have hlate : s₀.lateRefusal? (.ran l now ending) = none := rfl
  rw [hlate, Option.toList_none, List.append_nil] at htorn
  constructor
  · intro hharmless
    refine Option.eq_none_iff_forall_ne_some.2 fun k hk => ?_
    obtain ⟨y, hy, -⟩ := endings_of_displaced hrun ho hk
    have hnil := hharmless.tearsDown
    rw [htorn, List.map_eq_nil_iff] at hnil
    exact absurd (hnil ▸ hy) List.not_mem_nil
  · intro hnone
    obtain ⟨error, herror⟩ := Option.isSome_iff_exists.1 (ending.isFailure_eq ▸ hfail)
    obtain ⟨hgo, hended⟩ :=
      goesOn_ran herror hx ((displaced?_eq_none hfail hx hleft).1 hnone) now
    have hstays : (s₀.ran l now ending).1.stays = s₀.stays := hgo.stays
    refine ⟨hstays, ?_, ?_⟩
    · rw [htorn, List.map_eq_nil_iff]
      exact endings_eq_nil fun k hk => tickets_of_stays hstays ▸ hk
    · show SetAnswer.isReport (.loop (s₀.ran l now ending).2) = false
      rw [hended]
      rfl

/-- A live loop has a registration, which refers to it, exactly if that has not been thrown out by
a loop of another stay. A loop that fails after its registration has left does nothing exactly
if it does not throw out another. -/
theorem owner_of_run (hrun : (setSystem κ ξ).Run h s) :
    (∀ x ∈ s.loops, x.isLive = true →
      ((∃ r ∈ s.registry, r.ticket = x.ticket ∧ r.loop = some x.id) ↔
        x.ticket ∉ displacements h)) ∧
    ∀ o ∈ h, isStaleFailure o = true → (IsHarmless o ↔ o.before.displaced? o.event = none) := by
  have hs := sound_of_run hrun
  refine ⟨fun x hx hlive => ⟨?_, fun hno => ?_⟩, fun o ho => isHarmless_iff hrun ho⟩
  · rintro ⟨r, hr, hk, -⟩ hd
    exact not_mem_of_hasLeft hrun (hasLeft_of_displaced hrun hd) (mem_tickets.2 ⟨r, hr, hk⟩)
  · rcases strays_of_run hrun x hx hlive with hk | hk
    · obtain ⟨r, hr, hk⟩ := mem_tickets.1 hk
      exact ⟨r, hr, hk, hs.owner r hr x hx hk.symm⟩
    · exact absurd hk hno

/-- A task is registered, unregistered during a run, and registered again. Then the run fails. -/
def staleRun : List (SetEvent Unit Unit) :=
  [.begin 0 .init false, .begin 1 (.register ⟨0, "a"⟩ [] {} none ()) false,
    .initialized 1 (.ok ()) false, .pollLoop 0 0, .pollLoop 0 1, .unregister ⟨0, "a"⟩,
    .begin 2 (.register ⟨0, "a"⟩ [] {} none ()) false, .initialized 2 (.ok ()) false,
    .ran 0 1 (.fault ⟨"failed", []⟩)]

theorem owner_of_run_displaced : ∃ (h : List (SetOccurrence Unit Unit)) (s : TaskSet Unit Unit),
    (setSystem Unit Unit).Run h s ∧ displacements h = [2] ∧
      (∀ x ∈ s.loops, x.isLive = true →
        ((∃ r ∈ s.registry, r.ticket = x.ticket ∧ r.loop = some x.id) ↔
          x.ticket ∉ displacements h)) ∧
      ∀ o ∈ h, isStaleFailure o = true →
        (IsHarmless o ↔ o.before.displaced? o.event = none) := by
  obtain ⟨h, s, hrun, hcheck⟩ := System.exists_run_of_replay (S := setSystem Unit Unit)
    (starts_new "s" none) staleRun
    (fun h _ => displacements h == [2]) (by decide +kernel)
  exact ⟨h, s, hrun, by simpa using hcheck, owner_of_run hrun⟩

/-- The old loop throws out the new stay, whose loop goes on without a registration. -/
theorem stale_failure_displaces : ¬ ∀ (h : List (SetOccurrence Unit Unit)) (s : TaskSet Unit Unit),
    (setSystem Unit Unit).Run h s →
      (∀ x ∈ s.loops, x.isLive = true →
        ∃ r ∈ s.registry, r.ticket = x.ticket ∧ r.loop = some x.id) ∧
      ∀ o ∈ h, isStaleFailure o = true → IsHarmless o := by
  obtain ⟨h, s, hrun, hcheck⟩ := System.exists_run_of_replay (S := setSystem Unit Unit)
    (starts_new "s" none) staleRun
    (fun h _ => h.any fun o => isStaleFailure o && (o.before.displaced? o.event).isSome)
    (by decide +kernel)
  obtain ⟨o, ho, hcheck⟩ := List.any_eq_true.1 hcheck
  obtain ⟨hstale, hsome⟩ := Bool.and_eq_true_iff.1 hcheck
  intro hclaim
  have hnone := (isHarmless_iff hrun ho hstale).1 ((hclaim h s hrun).2 o ho hstale)
  simp [hnone] at hsome

end TaskSet

end Overseer
