import Overseer.Proofs.Onward
import Overseer.Proofs.Supervision.Solo

/-!
# Startup by lowest priority

The order of startup comes about in a roundabout way: the registry is sorted by one key, and the
schedule goes through it by another (`Registry.schedule`). `startup_of_run` says what it amounts to.
The tasks that are registered when startup begins are initialized in the order of a stable sort by
the lowest of the priorities that they have been given (`startupOrder`). Whoever has been given none
comes last, and a tie goes to the one who came in first.

A stable sort is known by what it does to pairs (`eq_mergeSort`), and about pairs the registry says
enough: of two with one key, the one who came in first is visited first.
-/

namespace Overseer

variable {κ ξ : Type}

/-! ## The lowest priority -/

namespace RegisterOptions

variable {π : Type} {o : RegisterOptions π κ} {n : Nat} {ns : List Nat}

/-- The options, with priorities that are added one after the other. -/
def withPriorities (o : RegisterOptions π κ) (ns : List Nat) : RegisterOptions π κ :=
  ns.foldl withPriority o

theorem mem_withPriorities :
    n ∈ (o.withPriorities ns).priorities ↔ n ∈ ns ∨ n ∈ o.priorities := by
  induction ns generalizing o with
  | nil => simp [withPriorities]
  | cons m ns ih =>
    have hnext : n ∈ (o.withPriorities (m :: ns)).priorities ↔
        n ∈ ns ∨ n ∈ (o.withPriority m).priorities := ih
    rw [hnext, withPriority, mem_insertPriority, List.mem_cons, ← or_assoc, or_comm (a := n ∈ ns)]

theorem IsProper.withPriorities (h : o.IsProper) (ns : List Nat) :
    (o.withPriorities ns).IsProper := by
  induction ns generalizing o with
  | nil => exact h
  | cons m ns ih => exact ih (h.withPriority m)

/-- The lowest priority is the lowest of those that have been added, in whatever order. -/
theorem min?_withPriorities (ns : List Nat) :
    (({} : RegisterOptions π κ).withPriorities ns).priorities.min? = ns.min? :=
  Option.ext fun n => by simp [List.min?_eq_some_iff, mem_withPriorities]

end RegisterOptions

namespace Registration

/-- What has priorities is sorted by the lowest. -/
theorem min?_of_prioritized (r : Registration κ ξ) (h : r.options.IsProper)
    (hprio : r.isPrioritized = true) : r.options.priorities.min? = some r.sortKey := by
  obtain ⟨p, hp⟩ := isPrioritized_iff.1 hprio
  exact List.min?_eq_some_iff.2 ⟨(RegisterOptions.sortKey_le h hp).1,
    fun q hq => (RegisterOptions.sortKey_le h hq).2⟩

theorem min?_of_unprioritized (r : Registration κ ξ) (hprio : r.isPrioritized = false) :
    r.options.priorities.min? = none := by
  rw [List.min?_eq_none_iff]
  simpa [isPrioritized] using hprio

end Registration

/-- The lower of two priorities comes first, and none comes last. -/
def sooner : Option Nat → Option Nat → Bool
  | some p, some q => p ≤ q
  | none, some _ => false
  | _, none => true

theorem sooner_trans (x y z : Option Nat) :
    sooner x y = true → sooner y z = true → sooner x z = true := by
  cases x <;> cases y <;> cases z <;> simp [sooner]
  exact Nat.le_trans

theorem sooner_total (x y : Option Nat) : (sooner x y || sooner y x) = true := by
  cases x <;> cases y <;> simp [sooner]
  exact Nat.le_total _ _

/-! ## The order of startup -/

/-- A registration has been given these priorities, one after the other. -/
def Request.IsGiven (ns : List Nat) : Request κ ξ → Prop
  | .register _ _ options _ _ =>
    options.priorities = (({} : RegisterOptions PoolId κ).withPriorities ns).priorities
  | _ => True

instance (ns : List Nat) : (request : Request κ ξ) → Decidable (request.IsGiven ns)
  | .register _ _ _ _ _ => inferInstanceAs (Decidable (_ = _))
  | .init => inferInstanceAs (Decidable True)
  | .destroy => inferInstanceAs (Decidable True)

namespace TaskSet

variable {s t : TaskSet κ ξ} {c : CallId} {turn : CallTurn} {h : List (SetOccurrence κ ξ)}
  {e : SetEvent κ ξ} {given : CallId → List Nat} {b : Bool}

/-- Every registration of the history has been given what is `given` for its call. -/
def OfGiven (given : CallId → List Nat) (h : List (SetOccurrence κ ξ)) : Prop :=
  ∀ o ∈ h, ∀ c ∈ o.event.begins?, ∀ request ∈ o.event.request?, request.IsGiven (given c)

instance : Decidable (OfGiven given h) := inferInstanceAs (Decidable
  (∀ o ∈ h, ∀ c ∈ o.event.begins?, ∀ request ∈ o.event.request?, request.IsGiven (given c)))

/-- Who is registered, by lowest priority and then by entrance. -/
def startupOrder (given : CallId → List Nat) (h : List (SetOccurrence κ ξ)) : List CallId :=
  (residents h).mergeSort fun j k => sooner (given j).min? (given k).min?

theorem tickets_perm_startupOrder (hrun : (setSystem κ ξ).Run h s) :
    s.tickets.Perm (startupOrder given h) :=
  (tickets_perm hrun).trans (List.mergeSort_perm _ _).symm

theorem priorities_of_given (hrun : (setSystem κ ξ).Run h s) (hgiven : OfGiven given h)
    {r : Registration κ ξ} (hr : r ∈ s.registry) :
    r.options.IsProper ∧ r.options.priorities.min? = (given r.ticket).min? := by
  obtain ⟨o, ho, b, hevent⟩ := (requested_of_run hrun).registered r hr
  have hadded : r.options.priorities =
      (({} : RegisterOptions PoolId κ).withPriorities (given r.ticket)).priorities :=
    hgiven o ho r.ticket (by rw [hevent]; rfl) r.origin.2 (by rw [hevent]; rfl)
  refine ⟨?_, by rw [hadded, RegisterOptions.min?_withPriorities]⟩
  rw [RegisterOptions.IsProper, hadded]
  exact RegisterOptions.isProper_default.withPriorities _

/-- The schedule of startup is by lowest priority and then by entrance. -/
theorem schedule_of_given (hrun : (setSystem κ ξ).Run h s) (hgiven : OfGiven given h) :
    s.registry.schedule.map (·.ticket) = startupOrder given h := by
  have hproper : s.registry.IsProper := fun r hr => (priorities_of_given hrun hgiven hr).1
  have hkey : ∀ r ∈ s.registry, r.isPrioritized = true →
      (given r.ticket).min? = some r.sortKey := fun r hr hprio =>
    (priorities_of_given hrun hgiven hr).2.symm.trans (r.min?_of_prioritized (hproper r hr) hprio)
  have hnone : ∀ r ∈ s.registry, r.isPrioritized = false → (given r.ticket).min? = none :=
    fun r hr hprio =>
      (priorities_of_given hrun hgiven hr).2.symm.trans (r.min?_of_unprioritized hprio)
  have hlined := lined_residents hrun
  rw [Registry.tickets_schedule (isSorted_of_run hrun) hproper]
  refine eq_mergeSort (fun _ _ _ => sooner_trans _ _ _) (fun _ _ => sooner_total _ _)
    (nodup_residents hrun)
    (((List.filter_append_perm _ _).map _).trans (tickets_perm hrun))
    (List.pairwise_map.2 (List.pairwise_append.2 ⟨?_, ?_, ?_⟩))
  -- two with priorities, two without, and one with and one without
  · refine (hlined.filter _).imp_of_mem fun {a b} ha hb hab => ?_
    obtain ⟨ha, hprio⟩ := List.mem_filter.1 ha
    obtain ⟨hb, hprio'⟩ := List.mem_filter.1 hb
    simp only [hkey a ha hprio, hkey b hb hprio', sooner, decide_eq_true_eq]
    exact ⟨hab.elim Nat.le_of_lt fun hab => Nat.le_of_eq hab.1,
      fun hle => (hab.resolve_left (Nat.not_lt.2 hle)).2⟩
  · refine (hlined.filter _).imp_of_mem fun {a b} ha hb hab => ?_
    obtain ⟨ha, hprio⟩ := List.mem_filter.1 ha
    obtain ⟨hb, hprio'⟩ := List.mem_filter.1 hb
    rw [Bool.not_eq_true'] at hprio hprio'
    have hsame : a.sortKey = b.sortKey := by
      rw [Registration.sortKey_of_unprioritized hprio, Registration.sortKey_of_unprioritized hprio']
    rw [hnone a ha hprio, hnone b hb hprio']
    exact ⟨rfl, fun _ => (hab.resolve_left (Nat.not_lt.2 (Nat.le_of_eq hsame.symm))).2⟩
  · intro a ha b hb
    obtain ⟨ha, hprio⟩ := List.mem_filter.1 ha
    obtain ⟨hb, hprio'⟩ := List.mem_filter.1 hb
    rw [Bool.not_eq_true'] at hprio'
    rw [hkey a ha hprio, hnone b hb hprio']
    exact ⟨rfl, nofun⟩

/-! ## Startup from its beginning -/

/-- What the outside sees of a startup that initializes these tasks and succeeds. -/
def startupAnswers (es : List Entry) : List (SetAnswer κ) :=
  es.map (fun e => .call (.callInit e.task e.args)) ++ [.call (.returned (.ok ()))]

theorem happen_of_perform {answer : SetAnswer κ} (hperform : s.perform e = (t, answer)) :
    (setSystem κ ξ).happen s e = (t.collect.2, t.collect.1, answer) :=
  congrArg (fun x => (x.1.collect.2, x.1.collect.1, x.2)) hperform

/-- A startup that has `es` before it asks for their `init`s, and returns if these succeed. -/
theorem onward_of_advances {es : List Entry} (hrun : (setSystem κ ξ).Run h s)
    (hall : allows h s e = true) (hperform : s.perform e = (t, .call turn)) {u : TaskSet κ ξ}
    (hnext : Advances c es u t turn) {bs : List Bool} (hbs : bs.length = es.length) :
    ∃ h' s', (setSystem κ ξ).Onward h s h' s' ∧
      h'.map (·.event) = e :: bs.map (.initialized c (.ok ())) ∧
      h'.map (fun o => ((setSystem κ ξ).shows o).2) = startupAnswers es ∧
      s'.lifecycle = .started := by
  induction es generalizing h s e t turn u bs with
  | nil =>
    obtain ⟨hl, -, rfl⟩ := hnext
    obtain rfl := List.length_eq_zero_iff.1 hbs
    refine ⟨[⟨s, e⟩], _, .single hall, rfl, ?_, ?_⟩
    · simp [startupAnswers, System.shows, happen_of_perform hperform]
    · rw [happen_of_perform hperform]
      exact hl
  | cons next rest ih =>
    obtain ⟨hl, hc, -, rfl⟩ := hnext
    obtain ⟨b, bs, rfl⟩ := List.exists_cons_of_length_eq_add_one hbs
    have hrun' := hrun.next hall
    have hall' : allows (h ++ [⟨s, e⟩]) ((setSystem κ ξ).happen s e).1
        (.initialized c (.ok ()) b) = true := rfl
    have hstarting : ((setSystem κ ξ).happen s e).1.lifecycle = .starting := by
      rw [happen_of_perform hperform]
      exact hl
    have hcalls : ((setSystem κ ξ).happen s e).1.calls = [⟨c, .preparing next rest⟩] := by
      rw [happen_of_perform hperform]
      exact hc
    obtain ⟨t', turn', hperform', hnext'⟩ :=
      perform_initialized hrun' hall' hstarting hcalls
    obtain ⟨h', s', honward, hevents, hanswers, hstarted⟩ :=
      ih hrun' hall' hperform' hnext' (Nat.succ.inj hbs)
    refine ⟨⟨s, e⟩ :: h', s', .next hall honward, by simp [hevents], ?_, hstarted⟩
    rw [List.map_cons, hanswers]
    simp [startupAnswers, System.shows, happen_of_perform hperform]

/-- A startup that the call `c` begins initializes everyone of `order`, one after the other. -/
structure InitializesBy (order : List CallId) (c : CallId) (b : Bool)
    (h : List (SetOccurrence κ ξ)) (s : TaskSet κ ξ) : Prop where
  /-- If every `init` succeeds and nothing else happens, the call asks for them and returns. -/
  completes : ∀ bs : List Bool, bs.length = order.length → ∃ es h' s',
    (setSystem κ ξ).Onward h s h' s' ∧
    h'.map (·.event) = .begin c .init b :: bs.map (.initialized c (.ok ())) ∧
    h'.map (fun o => ((setSystem κ ξ).shows o).2) = startupAnswers es ∧
    es.map (·.ticket) = order ∧ (∀ e ∈ es, e ∈ List.map (·.entry) s.registry) ∧
    s'.lifecycle = .started
  /-- Whatever happens, it leaves nobody out who is before one that it has come to. -/
  inOrder : ∀ h' s', (setSystem κ ξ).Onward h s (⟨s, .begin c .init b⟩ :: h') s' →
    initsBy c (⟨s, .begin c .init b⟩ :: h') <+: order
  /-- Whatever happens, it has come to everyone if it has returned without an error. -/
  exhausts : ∀ h' s', (setSystem κ ξ).Onward h s (⟨s, .begin c .init b⟩ :: h') s' →
    (∃ o ∈ (⟨s, .begin c .init b⟩ :: h' : List (SetOccurrence κ ξ)), Returns o c (.ok ())) →
    initsBy c (⟨s, .begin c .init b⟩ :: h') = order

/-- The first startup initializes every task that is registered, once, by its lowest priority, those
without a priority last, and with one priority in the order of entrance. -/
theorem startup_of_run (hrun : (setSystem κ ξ).Run h s) (hgiven : OfGiven given h)
    (hpending : s.lifecycle = .pending)
    (hall : (setSystem κ ξ).allows h s (.begin c .init b) = true) :
    s.tickets.Perm (startupOrder given h) ∧ (startupOrder given h).Nodup ∧
      InitializesBy (startupOrder given h) c b h s := by
  have hall : allows h s (.begin c .init b) = true := hall
  have hperm : s.tickets.Perm (startupOrder given h) := tickets_perm_startupOrder hrun
  have hschedule := schedule_of_given hrun hgiven
  have hnone : initsBy c h = [] := (ledger_of_new hrun (allows_begin.1 hall).2).1
  have hbegan : Began (h ++ [⟨s, .begin c .init b⟩]) c .init := began_begin h s c .init b
  have hopens : Opens c (⟨s, .begin c .init b⟩ : SetOccurrence κ ξ) :=
    ⟨rfl, hpending, opened_of_began (hrun.next hall) hbegan⟩
  have hlater : ∀ h', initsBy c (h ++ h') = initsBy c h' := fun h' => by
    rw [initsBy, List.filterMap_append, ← initsBy, hnone, List.nil_append, initsBy]
  refine ⟨hperm, hperm.nodup_iff.1 (sound_of_run hrun).tickets, fun bs hbs => ?_,
    fun h' s' honward => ?_, fun h' s' honward hret => ?_⟩
  · obtain ⟨t, turn, hperform, hnext⟩ := perform_startup hrun hall hpending
    rw [← hschedule, List.length_map] at hbs
    obtain ⟨h', s', honward, hevents, hanswers, hstarted⟩ :=
      onward_of_advances hrun hall hperform hnext hbs
    exact ⟨_, h', s', honward, hevents, hanswers, hschedule,
      fun e he => Registry.entry_of_mem_schedule he, hstarted⟩
  · rw [← hlater, ← hschedule]
    exact initsBy_of_opens (honward.run hrun) rfl hbegan hopens hnone
  · rw [← hlater, ← hschedule]
    exact inits_of_opens (honward.run hrun) rfl hbegan hopens hret

/-- What the calls of the next example give. -/
def mixedPriorities : CallId → List Nat
  | 1 => [20000, 5]
  | 2 => [5]
  | 3 => [10000]
  | 4 => [7, 5, 7]
  | 5 => [5]
  | _ => []

/-- One of three tasks with the lowest priority goes and comes again, and so comes after the others.
The one without a priority comes last, though one of the priorities is above the default one. -/
theorem startup_of_run_mixed : ∃ (h : List (SetOccurrence Unit Unit)) (s : TaskSet Unit Unit),
    (setSystem Unit Unit).Run h s ∧ OfGiven mixedPriorities h ∧
    s.lifecycle = .pending ∧ (setSystem Unit Unit).allows h s (.begin 6 .init false) = true ∧
    startupOrder mixedPriorities h = [1, 4, 5, 3, 0] ∧
    s.tickets.Perm (startupOrder mixedPriorities h) ∧ (startupOrder mixedPriorities h).Nodup ∧
      InitializesBy (startupOrder mixedPriorities h) 6 false h s := by
  obtain ⟨h, s, hrun, hcheck⟩ := System.exists_run_of_replay (S := setSystem Unit Unit)
    (starts_new "s" none)
    [.begin 0 (.register ⟨0, "a"⟩ [] {} none ()) false,
      .begin 1 (.register ⟨1, "b"⟩ [] (({} : RegisterOptions PoolId Unit).withPriorities [20000, 5])
        none ()) false,
      .begin 2 (.register ⟨2, "c"⟩ [] (({} : RegisterOptions PoolId Unit).withPriorities [5])
        none ()) false,
      .begin 3 (.register ⟨3, "d"⟩ [] (({} : RegisterOptions PoolId Unit).withPriorities [10000])
        none ()) false,
      .begin 4 (.register ⟨4, "e"⟩ [] (({} : RegisterOptions PoolId Unit).withPriorities [7, 5, 7])
        none ()) false,
      .unregister ⟨2, "c"⟩,
      .begin 5 (.register ⟨2, "c"⟩ [] (({} : RegisterOptions PoolId Unit).withPriorities [5])
        none ()) false]
    (fun h s => decide (OfGiven mixedPriorities h) && (s.lifecycle == .pending) &&
      (setSystem Unit Unit).allows h s (.begin 6 .init false) &&
      (residents h == [0, 1, 3, 4, 5]))
    (by decide +kernel)
  simp only [Bool.and_eq_true, decide_eq_true_eq, beq_iff_eq] at hcheck
  obtain ⟨⟨⟨hgiven, hpending⟩, hall⟩, hresidents⟩ := hcheck
  have horder : startupOrder mixedPriorities h = [1, 4, 5, 3, 0] := by
    rw [startupOrder, hresidents]
    symm
    refine eq_mergeSort (fun _ _ _ => sooner_trans _ _ _) (fun _ _ => sooner_total _ _) ?_ ?_ ?_
    all_goals decide
  exact ⟨h, s, hrun, hgiven, hpending, hall, horder, startup_of_run hrun hgiven hpending hall⟩

end TaskSet

end Overseer
