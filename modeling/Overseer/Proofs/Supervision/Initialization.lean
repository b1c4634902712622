import Overseer.Proofs.Supervision.Stays

/-!
# One init for each registration

An `init` begins on behalf of a registration: a late one, before it comes in, or one that startup
finds in its snapshot. `Awaits us s k` says that the `init` of the registration `k` may still
come. Nothing makes an `init` come that was not to come (`Move.awaits`), and one that begins is
the last (`Move.inits`), so no registration has two.

Startup goes by its snapshot and does not look whether what it initializes is still registered.
What is unregistered while the set is starting is therefore initialized after it has left, if
startup comes to it. `inits_of_run` says that this is the only way for that to happen.
`init_after_departure` is a run in which it does.
-/

namespace Overseer

namespace TaskSet

variable {κ ξ : Type} {s t u : TaskSet κ ξ} {us : List CallId} {d : Option Deed} {k c : CallId}

/-- May an `init` on behalf of the registration still begin? It is yet to come, or waits to be
admitted, or waits in the registry or in the snapshot of startup. -/
def Awaits (us : List CallId) (s : TaskSet κ ξ) (k : CallId) : Prop :=
  k ∉ us ∨ (∃ r, ⟨k, .admitting r⟩ ∈ s.calls) ∨ (s.lifecycle = .pending ∧ k ∈ s.tickets) ∨
    ∃ x ∈ s.calls, ∃ e ∈ x.phase.due, e.ticket = k

theorem awaits_of_due {x : Call κ ξ} {e : Entry} (hx : x ∈ s.calls) (he : e ∈ x.phase.due) :
    Awaits us s e.ticket := Or.inr (Or.inr (Or.inr ⟨x, hx, e, he, rfl⟩))

/-! ## Moves -/

/-- A set whose calls and registrations have only become fewer makes nobody wait anew. -/
theorem awaits_of_fewer (hl : t.lifecycle = s.lifecycle ∨ t.lifecycle ≠ .pending)
    (hk : ∀ k ∈ t.tickets, k ∈ s.tickets) (hc : ∀ x ∈ t.calls, x ∈ s.calls) :
    Awaits us t k → Awaits us s k := by
  rintro (hnew | ⟨r, hr⟩ | ⟨hpend, htick⟩ | ⟨x, hx, e, he, rfl⟩)
  · exact Or.inl hnew
  · exact Or.inr (Or.inl ⟨r, hc _ hr⟩)
  · rcases hl with hl | hl
    · exact Or.inr (Or.inr (Or.inl ⟨hl ▸ hpend, hk _ htick⟩))
    · exact absurd hpend hl
  · exact awaits_of_due (hc x hx) he

theorem awaits_of_removal {torn : List TaskRef} {id : TaskId}
    (h : GoesOn torn { s with registry := s.registry.remove id } t) :
    Awaits us t k → Awaits us s k := by
  refine awaits_of_fewer (Or.inl h.lifecycle) (fun k hk => ?_) fun x hx => h.calls ▸ hx
  rw [h.tickets] at hk
  exact (List.filter_sublist.map _).subset hk

/-- A call that goes on to a phase in which it has no more to initialize makes nobody wait. -/
theorem awaits_of_setPhase {p q : CallPhase κ ξ} (hc : ⟨c, p⟩ ∈ s.calls)
    (hdue : ∀ e ∈ q.due, e ∈ p.due) (hq : ∀ r, q ≠ .admitting r) :
    Awaits us (s.setPhase c q) k → Awaits us s k := by
  rintro (hnew | ⟨r, hr⟩ | hpend | ⟨x, hx, e, he, rfl⟩)
  · exact Or.inl hnew
  · rcases mem_setPhase hr with heq | ⟨hr, _⟩
    · exact absurd (congrArg Call.phase heq).symm (hq r)
    · exact Or.inr (Or.inl ⟨r, hr⟩)
  · exact Or.inr (Or.inr (Or.inl hpend))
  · rcases mem_setPhase hx with rfl | ⟨hx, _⟩
    · exact awaits_of_due hc (hdue e he)
    · exact awaits_of_due hx he

theorem Awaits.of_enroll (hs : Sound us s) {p : CallPhase κ ξ} {r : Registration κ ξ}
    (hc : ⟨c, p⟩ ∈ s.calls) (hp : p = .admitting r ∨ p = .readmitting r) :
    Awaits us ((s.enroll r).without c) k → Awaits us s k := by
  have hown : r.ticket = c := hs.own _ hc r (by rcases hp with rfl | rfl <;> rfl)
  obtain ⟨hlife, hcalls, -, hticks⟩ := enroll_same s r c
  have hmem : ∀ x ∈ ((s.enroll r).without c).calls, x ∈ s.calls := by
    intro x hx
    rw [hcalls] at hx
    exact mem_without hx
  rintro (hnew | ⟨r', hr'⟩ | ⟨hpend, htick⟩ | ⟨x, hx, e, he, rfl⟩)
  · exact Or.inl hnew
  · exact Or.inr (Or.inl ⟨r', hmem _ hr'⟩)
  · rw [hlife] at hpend
    rcases (hticks k).1 htick with rfl | htick
    · -- registered before startup, so never initialized by its own call
      rcases hp with rfl | rfl
      · exact Or.inr (Or.inl ⟨r, hown ▸ hc⟩)
      · simpa [CallPhase.isLate] using hs.unopened hpend _ hc
    · exact Or.inr (Or.inr (Or.inl ⟨hpend, htick⟩))
  · exact awaits_of_due (hmem x hx) he

/-- No move makes a registration wait for its `init` that did not before. -/
theorem Move.awaits (h : Move s d t) (hs : Sound us s) : Awaits us t k → Awaits us s k := by
  cases h with
  | goesOn h =>
    exact awaits_of_fewer (Or.inl h.lifecycle) (fun k hk => h.tickets ▸ hk)
      fun x hx => h.calls ▸ hx
  | shifts hc hp =>
    exact awaits_of_setPhase hc (fun e he => hp.within.due.subset he) hp.ne_admitting
  | opens hc hl =>
    rintro (hnew | ⟨r, hr⟩ | ⟨hpend, _⟩ | ⟨x, hx, e, he, rfl⟩)
    · exact Or.inl hnew
    · rcases mem_setPhase hr with heq | ⟨hr, _⟩
      · exact absurd (congrArg Call.phase heq).symm (CallPhase.before_ne_admitting _ r)
      · exact Or.inr (Or.inl ⟨r, hr⟩)
    · exact nomatch hpend
    · rcases mem_setPhase hx with rfl | ⟨hx, _⟩
      · rw [CallPhase.due_before] at he
        exact Or.inr (Or.inr (Or.inl ⟨hl, Registry.mem_of_mem_schedule he⟩))
      · exact awaits_of_due hx he
  | marks id =>
    have hsame := tickets_of_stays (Move.marks s id).quiet.1
    exact awaits_of_fewer (Or.inl rfl) (fun k hk => hsame ▸ hk) fun x hx => hx
  | finishes c => exact awaits_of_fewer (Or.inl rfl) (fun _ h => h) fun x hx => mem_without hx
  | @starts c p hc hl =>
    obtain ⟨hl', hc', hs', -⟩ := startLoops_same (s.registry.tasks.map (·.id))
      ({ s with lifecycle := .started, isRooted := true, rootCancelled := p }.without c)
    refine awaits_of_fewer (Or.inr ?_) (fun k hk => tickets_of_stays hs' ▸ hk) fun x hx => ?_
    · rw [hl']
      exact nofun
    · rw [hc'] at hx
      exact mem_without hx
  | givesUp hc hl =>
    exact awaits_of_fewer (Or.inr nofun) (fun _ h => h) fun x hx => mem_without hx
  | comesLate hc hu => exact awaits_of_setPhase hc nofun nofun
  | prepares hc hl => exact awaits_of_setPhase hc (fun e he => List.mem_cons_of_mem _ he) nofun
  | enrolls hc hp hr => exact Awaits.of_enroll hs hc hp
  | refuses hc h =>
    exact awaits_of_fewer (Or.inl h.lifecycle) (fun k hk => h.tickets ▸ hk)
      fun x hx => mem_without (h.calls ▸ hx)
  | removes way id hr hw h _ => exact awaits_of_removal h
  | displaces id hr hl h => exact awaits_of_removal h
  | demolishes h _ =>
    refine awaits_of_fewer (Or.inr ?_) (fun k hk => ?_) fun x hx => h.calls ▸ hx
    · rw [h.lifecycle]
      exact nofun
    · rw [h.tickets] at hk
      exact nomatch hk
  | drops hc h _ =>
    refine awaits_of_fewer (Or.inl h.lifecycle) (fun k hk => ?_) fun x hx => h.calls ▸ hx
    rw [h.tickets] at hk
    exact nomatch hk

/-- An `init` that begins was to come, and no other is to come for its registration. -/
theorem Move.inits (h : Move s (some (.init k)) t) (hs : Sound us s) :
    Awaits us s k ∧ ¬Awaits us t k := by
  cases h with
  | @comesLate c r hc hu =>
    have hown : r.ticket = c := hs.own _ hc r rfl
    rw [hown]
    refine ⟨Or.inr (Or.inl ⟨r, hc⟩), ?_⟩
    rintro (hnew | ⟨r', hr⟩ | ⟨hpend, _⟩ | ⟨x, hx, e, he, hid⟩)
    · exact hnew (hs.calls _ hc)
    · rcases mem_setPhase hr with heq | ⟨_, hne⟩
      · simp at heq
      · exact hne rfl
    · have hpend' : s.lifecycle = .pending := hpend
      simp [isUnderway, hpend'] at hu
    · rcases mem_setPhase hx with rfl | ⟨hx, _⟩
      · simp [CallPhase.due] at he
      · exact hs.dueNew x hx e he _ hc r rfl hid.symm
  | @prepares c next rest hc hl =>
    refine ⟨awaits_of_due hc List.mem_cons_self, ?_⟩
    have hnext : next ∈ (CallPhase.checking next rest : CallPhase κ ξ).due := List.mem_cons_self
    rintro (hnew | ⟨r, hr⟩ | ⟨hpend, _⟩ | ⟨x, hx, e, he, hid⟩)
    · exact hnew (hs.dueKnown _ hc next hnext)
    · rcases mem_setPhase hr with heq | ⟨hr, _⟩
      · simp at heq
      · exact hs.dueNew _ hc next hnext _ hr r rfl rfl
    · have hpend' : s.lifecycle = .pending := hpend
      simpa [hpend'] using hs.starting _ hc rfl
    · rcases mem_setPhase hx with rfl | ⟨hx, hne⟩
      · have hnodup := hs.due _ hc
        simp only [CallPhase.due, List.map_cons, List.nodup_cons] at hnodup
        exact hnodup.1 (List.mem_map.2 ⟨e, he, hid⟩)
      · -- startup is alone, so nobody else has anything to initialize
        cases hx' : x.phase.isStartup with
        | false => simp [due_eq_nil hx'] at he
        | true => exact hne (hs.single x hx _ hc hx' rfl)

/-- A set that has been destroyed stays so. -/
theorem Move.terminated (h : Move s d t) (hl : s.lifecycle = .terminated) :
    t.lifecycle = .terminated := by
  cases h with
  | goesOn h => exact h.lifecycle.trans hl
  | opens hc hl' => simp [hl] at hl'
  | starts p hc hl' => exact absurd hl hl'
  | givesUp hc hl' => exact absurd hl hl'
  | enrolls hc hp hr => exact (enroll_same _ _ _).1.trans hl
  | refuses hc h => exact h.lifecycle.trans hl
  | removes way id hr hw h _ => exact h.lifecycle.trans hl
  | displaces id hr hl' h => exact h.lifecycle.trans hl
  | demolishes h _ => exact h.lifecycle
  | drops hc h _ => exact h.lifecycle.trans hl
  | _ => exact hl

/-- Nothing is initialized in a set that has been destroyed. -/
theorem Move.not_terminated (h : Move s (some (.init k)) t) : s.lifecycle ≠ .terminated := by
  cases h with
  | comesLate hc hu =>
    intro hl
    simp [isUnderway, hl] at hu
  | prepares hc hl => exact hl

/-- No `init` will begin on behalf of the registration any more. -/
def IsLost (us : List CallId) (s : TaskSet κ ξ) (k : CallId) : Prop :=
  ¬Awaits us s k ∨ s.lifecycle = .terminated

/-- Outside of startup nothing but the registry holds a registration that is in it. -/
theorem lost_of_departure (hs : Sound us s) (hk : k ∈ s.tickets) (hk' : k ∉ t.tickets)
    (hl : t.lifecycle = s.lifecycle) (hc : t.calls = s.calls) (hne : s.lifecycle ≠ .starting) :
    IsLost us t k := by
  by_cases hterm : s.lifecycle = .terminated
  · exact Or.inr (hl.trans hterm)
  · refine Or.inl ?_
    rintro (hnew | ⟨r, hr⟩ | ⟨_, htick⟩ | ⟨x, hx, e, he, _⟩)
    · exact hnew (hs.registered k hk)
    · rw [hc] at hr
      exact (hs.new _ hr r rfl).1 hk
    · exact hk' htick
    · rw [hc] at hx
      simp [due_eq_nil (hs.not_isStartup hne hterm x hx)] at he

theorem Sound.not_starting (hs : Sound us s) (hne : s.loops ≠ []) : s.lifecycle ≠ .starting := by
  intro hl
  have h := hs.idle hne
  simp [hl] at h

/-- A registration that leaves is lost for `init`, unless it is unregistered during startup. -/
theorem Move.departs (h : Move s d t) (hs : Sound us s) (hk : k ∈ s.tickets) (hk' : k ∉ t.tickets)
    (hway : d.bind (·.way?) = some .unregistered → s.lifecycle ≠ .starting) :
    IsLost us t k := by
  cases d with
  | none =>
    rw [tickets_of_stays h.quiet.1] at hk'
    exact absurd hk hk'
  | some d =>
    cases h with
    | comesLate hc hu => exact absurd hk hk'
    | prepares hc hl => exact absurd hk hk'
    | enrolls hc hp hr => exact absurd (((enroll_same _ _ _).2.2.2 k).2 (Or.inr hk)) hk'
    | refuses hc h =>
      rw [h.tickets] at hk'
      exact absurd hk hk'
    | removes way id hr hw h _ =>
      refine lost_of_departure hs hk hk' h.lifecycle h.calls ?_
      rcases hw with rfl | hne
      · exact hway rfl
      · exact hs.not_starting hne
    | displaces id hr hne h =>
      exact lost_of_departure hs hk hk' h.lifecycle h.calls (hs.not_starting hne)
    | demolishes h _ => exact Or.inr h.lifecycle
    | drops hc h _ =>
      refine Or.inl ?_
      have hcalls : t.calls = [] := h.calls.trans hc
      rintro (hnew | ⟨r, hr⟩ | ⟨_, htick⟩ | ⟨x, hx, _⟩)
      · exact hnew (hs.registered k hk)
      · simp [hcalls] at hr
      · exact hk' htick
      · simp [hcalls] at hx

/-! ## Courses -/

theorem Course.awaits (h : Course s d t) (hs : Sound us s) : Awaits us t k → Awaits us s k := by
  have hno : ¬Awaits us s k → ¬Awaits us t k :=
    h.keepsSound (P := fun s => ¬Awaits us s k)
      (fun hm hs hno hawaits => hno (hm.awaits hs hawaits)) hs
  exact not_imp_not.1 hno

theorem Course.terminated (h : Course s d t) :
    s.lifecycle = .terminated → t.lifecycle = .terminated := h.keeps Move.terminated

theorem Course.lost (h : Course s d t) (hs : Sound us s) (hk : IsLost us s k) : IsLost us t k :=
  hk.imp (fun hno hawaits => hno (h.awaits hs hawaits)) h.terminated

theorem Course.inits (h : Course s d t) : Sound us s → d = some (.init k) →
    Awaits us s k ∧ ¬Awaits us t k ∧ s.lifecycle ≠ .terminated := by
  induction h with
  | stays s => exact fun _ hd => nomatch hd
  | quietly hm _ ih =>
    intro hs hd
    obtain ⟨hawaits, hno, hl⟩ := ih (hm.sound hs) hd
    exact ⟨hm.awaits hs hawaits, hno, fun hl' => hl (hm.terminated hl')⟩
  | does hm hc _ =>
    intro hs hd
    obtain rfl := Option.some.inj hd
    obtain ⟨hawaits, hno⟩ := hm.inits hs
    exact ⟨hawaits, fun h => hno (hc.awaits (hm.sound hs) h), hm.not_terminated⟩

theorem Course.departs (h : Course s d t) : Sound us s → k ∈ s.tickets → k ∉ t.tickets →
    d.bind (·.way?) ≠ some .unregistered → IsLost us t k := by
  induction h with
  | stays s => exact fun _ hk hk' => absurd hk hk'
  | quietly hm _ ih =>
    intro hs hk
    exact ih (hm.sound hs) (tickets_of_stays hm.quiet.1 ▸ hk)
  | does hm hc _ =>
    intro hs hk hk' hway
    rw [tickets_of_stays hc.quiet.1] at hk'
    exact hc.lost (hm.sound hs) (hm.departs hs hk hk' fun h => absurd h hway)

/-! ## Unregistering -/

/-- The registration that an event unregisters while startup is under way. -/
def withdrawn? (s : TaskSet κ ξ) : SetEvent κ ξ → Option CallId
  | .unregister task =>
    if s.lifecycle = .starting then (s.registry.lookup? task.id).map (·.ticket) else none
  | _ => none

theorem unregister_same (s : TaskSet κ ξ) (task : TaskRef) :
    (s.unregister task).1.lifecycle = s.lifecycle ∧ (s.unregister task).1.calls = s.calls ∧
      (s.unregister task).1.registry = s.registry.remove task.id := by
  unfold unregister
  split
  · rename_i hnone
    refine ⟨rfl, rfl, (List.filter_eq_self.2 fun a ha => ?_).symm⟩
    simpa using List.find?_eq_none.1 hnone a ha
  · rename_i r _
    have hgo := goesOn_retire { s with registry := s.registry.remove task.id } r .stopped
    exact ⟨hgo.lifecycle, hgo.calls, hgo.registry⟩

/-- Exactly the registration of the task leaves when a task is unregistered. -/
theorem departs_unregister (hs : Sound us s) (task : TaskRef) :
    (k ∈ s.tickets ∧ k ∉ (s.unregister task).1.tickets) ↔
      (s.registry.lookup? task.id).map (·.ticket) = some k := by
  have htickets : (s.unregister task).1.tickets =
      List.map (·.ticket) (s.registry.remove task.id) := by
    rw [tickets, (unregister_same s task).2.2]
  rw [htickets]
  constructor
  · rintro ⟨hk, hk'⟩
    obtain ⟨a, ha, rfl⟩ := mem_tickets.1 hk
    have hid : a.task.id = task.id := by
      by_contra hne
      exact hk' (List.mem_map.2 ⟨a, Registry.mem_remove.2 ⟨ha, hne⟩, rfl⟩)
    rw [← hid, Registry.lookup?_eq_some hs.tasks ha]
    rfl
  · intro hlookup
    obtain ⟨r, hr, rfl⟩ := Option.map_eq_some_iff.1 hlookup
    have hmem := Registry.mem_of_lookup? hr
    refine ⟨mem_tickets.2 ⟨r, hmem, rfl⟩, fun hk => ?_⟩
    obtain ⟨b, hb, hkb⟩ := List.mem_map.1 hk
    obtain ⟨hb, hne⟩ := Registry.mem_remove.1 hb
    obtain rfl := List.inj_on_of_nodup_map hs.tickets hb hmem hkb
    exact hne (Registry.id_of_lookup? hr)

/-! ## Events -/

variable {h : List (SetOccurrence κ ξ)} {e : SetEvent κ ξ}

/-- The `init` of a call that enters was yet to come. -/
theorem awaits_of_entered (hall : allows h s e = true) :
    Awaits (begun (h ++ [⟨s, e⟩])) (s.entered e) k → Awaits (begun h) s k := by
  rw [begun_append]
  cases e with
  | begin c request p =>
    have hc := (allows_begin.1 hall).2
    have hmem : ∀ {x}, x ∈ (s.addCall c (request.phase c)).calls →
        x ∈ s.calls ∨ x = ⟨c, request.phase c⟩ := fun hx => by simpa [addCall] using hx
    have hdue : (request.phase c).due = [] := by cases request <;> rfl
    rintro (hnew | ⟨r, hr⟩ | hpend | ⟨x, hx, e, he, rfl⟩)
    · exact Or.inl fun hk => hnew (List.mem_append_left _ hk)
    · rcases hmem hr with hr | heq
      · exact Or.inr (Or.inl ⟨r, hr⟩)
      · obtain rfl : k = c := congrArg Call.id heq
        exact Or.inl hc
    · exact Or.inr (Or.inr (Or.inl hpend))
    · rcases hmem hx with hx | rfl
      · exact awaits_of_due hx he
      · simp [hdue] at he
  | _ =>
    intro hawaits
    simpa [SetEvent.begins?, entered] using hawaits

variable (hrun : (setSystem κ ξ).Run h s) (hall : allows h s e = true)
include hrun hall

theorem awaits_of_perform :
    Awaits (begun (h ++ [⟨s, e⟩])) (s.perform e).1 k → Awaits (begun h) s k := by
  intro hawaits
  have hs := sound_of_run hrun
  obtain ⟨d, hcourse, -⟩ := course_of_perform hs hall
  exact awaits_of_entered hall (hcourse.awaits (hs.entered hall) hawaits)

theorem lost_of_perform (hk : IsLost (begun h) s k) :
    IsLost (begun (h ++ [⟨s, e⟩])) (s.perform e).1 k := by
  obtain ⟨d, hcourse, -⟩ := course_of_perform (sound_of_run hrun) hall
  refine hk.imp (fun hno hawaits => hno (awaits_of_perform hrun hall hawaits)) fun hl => ?_
  exact hcourse.terminated ((lifecycle_entered s e).trans hl)

/-- The `init` that an event begins was to come, and it does not come again. -/
theorem inits_of_perform (hinit : s.initTicket? e = some k) :
    Awaits (begun h) s k ∧ ¬Awaits (begun (h ++ [⟨s, e⟩])) (s.perform e).1 k ∧
      s.lifecycle ≠ .terminated := by
  have hs := sound_of_run hrun
  obtain ⟨d, hcourse, htells⟩ := course_of_perform hs hall
  have hd : d = some (.init k) := by
    rw [htells.initialized] at hinit
    obtain ⟨d, rfl, hd⟩ := Option.bind_eq_some_iff.1 hinit
    cases d <;> simp [Deed.initialized?] at hd
    rw [hd]
  obtain ⟨hawaits, hno, hl⟩ := hcourse.inits (hs.entered hall) hd
  rw [lifecycle_entered] at hl
  exact ⟨awaits_of_entered hall hawaits, hno, hl⟩

/-- A registration that leaves otherwise than by being unregistered during startup is lost. -/
theorem departs_of_perform (hk : k ∈ s.tickets) (hk' : k ∉ (s.perform e).1.tickets)
    (hstays : s.withdrawn? e ≠ some k) : IsLost (begun (h ++ [⟨s, e⟩])) (s.perform e).1 k := by
  have hs := sound_of_run hrun
  obtain ⟨d, hcourse, htells⟩ := course_of_perform hs hall
  by_cases hway : d.bind (·.way?) = some .unregistered
  · obtain ⟨task, rfl⟩ := htells.way hway
    obtain ⟨hl, hc, -⟩ := unregister_same s task
    have hlookup := (departs_unregister hs task).1 ⟨hk, hk'⟩
    have hne : s.lifecycle ≠ .starting := by
      intro hl'
      simp [withdrawn?, hl', hlookup] at hstays
    have hs' : Sound (begun (h ++ [⟨s, .unregister task⟩])) s := hs.entered hall
    exact lost_of_departure hs' hk hk' hl hc hne
  · refine hcourse.departs (hs.entered hall) ?_ hk' hway
    rw [tickets_of_stays (stays_entered s e).1]
    exact hk

omit hrun hall

/-! ## Histories -/

/-- The registrations on whose behalf an `init` has begun, in order. -/
def inits (h : List (SetOccurrence κ ξ)) : List CallId :=
  h.filterMap fun o => o.before.initTicket? o.event

theorem inits_append (h : List (SetOccurrence κ ξ)) (o : SetOccurrence κ ξ) :
    inits (h ++ [o]) = inits h ++ (o.before.initTicket? o.event).toList := by
  cases hi : o.before.initTicket? o.event <;> simp [inits, hi]

/-- No registration is initialized twice, and what may still be initialized has not been. -/
theorem nodup_inits (hrun : (setSystem κ ξ).Run h s) :
    (inits h).Nodup ∧ ∀ k ∈ inits h, ¬Awaits (begun h) s k := by
  induction hrun with
  | start _ => exact ⟨List.nodup_nil, fun k hk => absurd hk List.not_mem_nil⟩
  | @next h s e hrun hall ih =>
    obtain ⟨hnodup, hdone⟩ := ih
    rw [inits_append]
    have hkept : ∀ k ∈ inits h, ¬Awaits (begun (h ++ [⟨s, e⟩])) (s.perform e).1 k :=
      fun k hk hawaits => hdone k hk (awaits_of_perform hrun hall hawaits)
    cases hinit : s.initTicket? e with
    | none => simpa using ⟨hnodup, hkept⟩
    | some k =>
      obtain ⟨hawaits, hno, -⟩ := inits_of_perform hrun hall hinit
      refine ⟨List.nodup_append.2 ⟨hnodup, by simp, fun i hi j hj => ?_⟩, fun j hj => ?_⟩
      · obtain rfl : j = k := by simpa using hj
        rintro rfl
        exact hdone i hi hawaits
      · rcases List.mem_append.1 hj with hj | hj
        · exact hkept j hj
        · obtain rfl : j = k := by simpa using hj
          exact hno

/-- What has left is lost, unless it was unregistered during startup. -/
theorem lost_of_run (hrun : (setSystem κ ξ).Run h s) : ∀ o ∈ h, k ∈ o.before.tickets →
    k ∉ ((setSystem κ ξ).after o).tickets → o.before.withdrawn? o.event ≠ some k →
    IsLost (begun h) s k := by
  induction hrun with
  | start _ => exact fun o ho => absurd ho List.not_mem_nil
  | @next h s e hrun hall ih =>
    intro o ho hk hk' hstays
    rcases List.mem_append.1 ho with ho | ho
    · exact lost_of_perform hrun hall (ih o ho hk hk' hstays)
    · obtain rfl := List.mem_singleton.1 ho
      exact departs_of_perform hrun hall hk hk' hstays

/-- A registration that is unregistered during startup leaves. -/
theorem hasLeft_of_withdrawn (hrun : (setSystem κ ξ).Run h s) {o : SetOccurrence κ ξ} (ho : o ∈ h)
    (hk : o.before.withdrawn? o.event = some k) : HasLeft h k := by
  obtain ⟨pre, hpre, -, -⟩ := hrun.of_mem ho
  obtain ⟨s, e⟩ := o
  cases e with
  | unregister task =>
    obtain ⟨-, hlookup⟩ : s.lifecycle = .starting ∧
        (s.registry.lookup? task.id).map (·.ticket) = some k := by
      simpa [withdrawn?] using hk
    have hleft := (departs_unregister (sound_of_run hpre) task).2 hlookup
    exact ⟨⟨s, .unregister task⟩, ho, hleft.1, hleft.2⟩
  | _ => simp [withdrawn?] at hk

/-- Each `init` begins on behalf of a registration, no two on behalf of the same. One begins after
its registration has left exactly if that was unregistered during startup. -/
theorem inits_of_run (hrun : (setSystem κ ξ).Run h s) :
    (∀ o ∈ h, ∀ task args, (o.before.perform o.event).2 = .call (.callInit task args) →
      (o.before.initTicket? o.event).isSome = true) ∧
    (inits h).Nodup ∧
    ∀ pre o post k, h = pre ++ o :: post → o.before.initTicket? o.event = some k →
      (HasLeft pre k ↔ ∃ o' ∈ pre, o'.before.withdrawn? o'.event = some k) := by
  refine ⟨fun o ho => ?_, (nodup_inits hrun).1, fun pre o post k heq hinit => ⟨?_, ?_⟩⟩
  · obtain ⟨pre, hpre, hall, -⟩ := hrun.of_mem ho
    obtain ⟨d, -, htells⟩ := course_of_perform (sound_of_run hpre) hall
    exact htells.complete
  · rintro ⟨o', ho', hk, hk'⟩
    obtain ⟨hpre, hall, -⟩ := hrun.split heq
    by_contra hno
    have hstays : o'.before.withdrawn? o'.event ≠ some k := fun hw => hno ⟨o', ho', hw⟩
    obtain ⟨hawaits, -, hl⟩ := inits_of_perform hpre hall hinit
    rcases lost_of_run hpre o' ho' hk hk' hstays with hlost | hlost
    · exact hlost hawaits
    · exact hl hlost
  · rintro ⟨o', ho', hw⟩
    exact hasLeft_of_withdrawn (hrun.split heq).1 ho' hw

/-- Startup initializes one task, and a late registration another. -/
theorem inits_of_run_late : ∃ (h : List (SetOccurrence Unit Unit)) (s : TaskSet Unit Unit),
    (setSystem Unit Unit).Run h s ∧ (inits h).length = 2 ∧
      (∀ o ∈ h, ∀ task args, (o.before.perform o.event).2 = .call (.callInit task args) →
        (o.before.initTicket? o.event).isSome = true) ∧
      (inits h).Nodup ∧
      ∀ pre o post k, h = pre ++ o :: post → o.before.initTicket? o.event = some k →
        (HasLeft pre k ↔ ∃ o' ∈ pre, o'.before.withdrawn? o'.event = some k) := by
  obtain ⟨h, s, hrun, hcheck⟩ := System.exists_run_of_replay (S := setSystem Unit Unit)
    (starts_new "s" none)
    [.begin 0 (.register ⟨0, "a"⟩ [] {} none ()) false, .begin 1 .init false,
      .begin 2 (.register ⟨1, "b"⟩ [] {} none ()) false, .initialized 1 (.ok ()) false]
    (fun h _ => (inits h).length == 2) (by decide +kernel)
  exact ⟨h, s, hrun, by simpa using hcheck, inits_of_run hrun⟩

/-- Two tasks are registered before startup. The second is unregistered while the first is
initialized, and initialized after that. -/
theorem init_after_departure : ¬ ∀ (h : List (SetOccurrence Unit Unit)) (s : TaskSet Unit Unit),
    (setSystem Unit Unit).Run h s → (inits h).Nodup ∧
      ∀ pre o post k, h = pre ++ o :: post → o.before.initTicket? o.event = some k →
        ¬HasLeft pre k := by
  obtain ⟨h, s, hrun, hcheck⟩ := System.exists_run_of_replay (S := setSystem Unit Unit)
    (starts_new "s" none)
    [.begin 0 (.register ⟨0, "a"⟩ [] {} none ()) false,
      .begin 1 (.register ⟨1, "b"⟩ [] {} none ()) false, .begin 2 .init false,
      .unregister ⟨1, "b"⟩]
    (fun h s => allows h s (.initialized 2 (.ok ()) false) &&
      (s.initTicket? (.initialized 2 (.ok ()) false) == some 1 &&
        h.any fun o => o.before.withdrawn? o.event == some 1)) (by decide +kernel)
  simp only [Bool.and_eq_true, beq_iff_eq, List.any_eq_true] at hcheck
  obtain ⟨hall, hinit, o, ho, hw⟩ := hcheck
  have hnext : (setSystem Unit Unit).Run (h ++ [⟨s, .initialized 2 (.ok ()) false⟩]) _ :=
    .next hrun hall
  intro hclaim
  exact (hclaim _ _ hnext).2 h _ [] 1 rfl hinit (hasLeft_of_withdrawn hrun ho hw)

end TaskSet

end Overseer
