import Overseer.Proofs.Supervision.Polling
import Overseer.Proofs.Supervision.Startup

/-!
# What a successful startup means

A set has started if it says so and every registration was initialized and has a loop of its
own (`IsUp`). A startup that concludes brings that about: what it finds in its snapshot is
initialized when it comes to its end, and so is what has come in meanwhile (`Ready`), and every
registration has its loop from then on (`Tended`).

But a startup also succeeds if it finds the set starting. With the startup lock in hand that can
only be so because an earlier startup was abandoned midway: an `init` has panicked, or the call was
dropped (`AbandonsStartup`). Nobody finishes what that startup has begun, and the set never
starts. `up_of_init` says that this is the only way in which a startup can succeed without a set
that is up, and `init_succeeds_after_panic` is a run in which it does.
-/

namespace Overseer

variable {κ ξ : Type}

/-- Startup goes by a snapshot of all that is registered. -/
theorem Registry.mem_schedule {reg : Registry κ ξ} {r : Registration κ ξ} (hr : r ∈ reg) :
    r.entry ∈ reg.schedule := by
  obtain ⟨i, hi, rfl⟩ := List.getElem_of_mem hr
  refine List.mem_filterMap.2 ⟨i, ?_, by simp [List.getElem?_eq_getElem hi]⟩
  exact List.mem_eraseDups.2 (List.mem_append_right _ (List.mem_range.2 hi))

/-- What a startup in this phase has still to initialize, or is initializing, if it may yet
conclude. -/
def CallPhase.left? : CallPhase κ ξ → Option (List Entry)
  | .checking next rest => some (next :: rest)
  | .preparing current rest => some (current :: rest)
  | .concluding => some []
  | _ => none

@[simp] theorem CallPhase.left?_before (es : List Entry) :
    (CallPhase.before es : CallPhase κ ξ).left? = some es := by
  cases es <;> rfl

theorem CallPhase.isStartup_of_left? {p : CallPhase κ ξ} {es : List Entry}
    (h : p.left? = some es) : p.isStartup = true := by
  cases p with
  | checking next rest => rfl
  | preparing current rest => rfl
  | concluding => rfl
  | _ => contradiction

namespace TaskSet

variable {s t : TaskSet κ ξ} {us ks : List CallId} {c : CallId} {p : CallPhase κ ξ}
  {turn : CallTurn} {h pre post : List (SetOccurrence κ ξ)} {o : SetOccurrence κ ξ}
  {e : SetEvent κ ξ}

/-! ## Who has been initialized -/

/-- A late registration that comes back has been initialized, and so has every registration of a
set that has started, and while startup is under way, all but what it has left to do. -/
structure Ready (ks : List CallId) (s : TaskSet κ ξ) : Prop where
  late : ∀ c r, ⟨c, .readmitting r⟩ ∈ s.calls → r.ticket ∈ ks
  started : s.lifecycle = .started → ∀ k ∈ s.tickets, k ∈ ks
  starting : s.lifecycle = .starting → ∀ x ∈ s.calls, ∀ left, x.phase.left? = some left →
    ∀ k ∈ s.tickets, k ∈ ks ∨ ∃ e ∈ left, e.ticket = k

theorem Ready.mono {ks' : List CallId} (h : Ready ks s) (hks : ∀ k ∈ ks, k ∈ ks') :
    Ready ks' s :=
  ⟨fun c r hc => hks _ (h.late c r hc), fun hl k hk => hks _ (h.started hl k hk),
    fun hl x hx left hleft k hk => (h.starting hl x hx left hleft k hk).imp_left (hks k)⟩

/-- Calls and registrations may go. -/
theorem Ready.fewer (h : Ready ks s) (hl : t.lifecycle = s.lifecycle)
    (hc : ∀ x ∈ t.calls, x ∈ s.calls) (hk : ∀ k ∈ t.tickets, k ∈ s.tickets) : Ready ks t where
  late c r hmem := h.late c r (hc _ hmem)
  started hst k hmem := h.started (hl ▸ hst) k (hk k hmem)
  starting hst x hx left hleft k hmem :=
    h.starting (hl ▸ hst) x (hc x hx) left hleft k (hk k hmem)

theorem Ready.alike {torn : List TaskRef} (h : Ready ks s) (ht : Alike torn s t) : Ready ks t :=
  h.fewer ht.lifecycle (fun _ hx => ht.calls ▸ hx) fun _ hk => ht.tickets ▸ hk

theorem Ready.without (h : Ready ks s) (c : CallId) : Ready ks (s.without c) :=
  h.fewer rfl (fun _ hx => mem_without hx) fun _ hk => hk

/-- A call that goes on to a phase of which nothing is to be said. -/
theorem Ready.setPhase (h : Ready ks s) (hlate : ∀ r, p = .readmitting r → r.ticket ∈ ks)
    (hleft : s.lifecycle = .starting → ∀ left, p.left? = some left →
      ∀ k ∈ s.tickets, k ∈ ks ∨ ∃ e ∈ left, e.ticket = k) (c : CallId) :
    Ready ks (s.setPhase c p) where
  late d r hd := by
    rcases mem_setPhase hd with heq | ⟨hd, -⟩
    · exact hlate r (Call.mk.inj heq).2.symm
    · exact h.late d r hd
  started := h.started
  starting hl x hx left hx' := by
    rcases mem_setPhase hx with rfl | ⟨hx, -⟩
    · exact hleft hl left hx'
    · exact h.starting hl x hx left hx'

/-- A call that begins has nothing to initialize yet. -/
theorem Ready.addCall (h : Ready ks s) (c : CallId) (request : Request κ ξ) :
    Ready ks (s.addCall c (request.phase c)) := by
  have hmem : ∀ {x}, x ∈ (s.addCall c (request.phase c)).calls →
      x ∈ s.calls ∨ x = ⟨c, request.phase c⟩ := fun hx => by simpa [TaskSet.addCall] using hx
  refine ⟨fun d r hx => ?_, h.started, fun hl x hx left hleft => ?_⟩
  · rcases hmem hx with hx | hx
    · exact h.late d r hx
    · have hphase := (Call.mk.inj hx).2
      cases request <;> simp [Request.phase] at hphase
  · rcases hmem hx with hx | rfl
    · exact h.starting hl x hx left hleft
    · cases request <;> simp [Request.phase, CallPhase.left?] at hleft

/-- A set that is neither starting nor started. -/
theorem Ready.closed (h : Ready ks s) (hc : ∀ x ∈ t.calls, x ∈ s.calls)
    (hstarting : t.lifecycle ≠ .starting) (hstarted : t.lifecycle ≠ .started) : Ready ks t :=
  ⟨fun c r hmem => h.late c r (hc _ hmem), fun hl => absurd hl hstarted,
    fun hl => absurd hl hstarting⟩

theorem Ready.givenUp (h : Ready ks s) (c : CallId) : Ready ks (s.givenUp c) := by
  have hcalls : (s.givenUp c).calls = (s.without c).calls := by
    unfold TaskSet.givenUp
    split <;> rfl
  refine h.closed (fun x hx => mem_without (hcalls ▸ hx)) ?_ ?_ <;>
    by_cases hl : s.lifecycle = Lifecycle.terminated <;>
      simp [TaskSet.givenUp, TaskSet.without, hl]

theorem Ready.cleared (h : Ready ks s) : Ready ks s.cleared := by
  have hcalls : s.cleared.calls = s.calls := congrArg (·.calls) (desk_cleared s)
  exact h.closed (fun x hx => hcalls ▸ hx) (by simp [lifecycle_cleared])
    (by simp [lifecycle_cleared])

/-- Nothing is left to initialize when a startup concludes. -/
theorem Ready.launched (h : Ready ks s) (hl : s.lifecycle = .starting)
    (hc : ⟨c, .concluding⟩ ∈ s.calls) (b : Bool) : Ready ks (s.launched c b) := by
  obtain ⟨hl', hcalls, hstays, -⟩ := startLoops_same (s.registry.tasks.map (·.id))
    ({ s with lifecycle := .started, isRooted := true, rootCancelled := b }.without c)
  refine ⟨fun d r hd => ?_, fun _ k hk => ?_, fun hno => ?_⟩
  · rw [TaskSet.launched, hcalls] at hd
    exact h.late d r (mem_without hd)
  · rw [TaskSet.launched, tickets_of_stays hstays] at hk
    exact (h.starting hl _ hc [] rfl k hk).resolve_right (by simp)
  · rw [TaskSet.launched, hl'] at hno
    contradiction

/-- Who comes into a set that is starting or started has been initialized. -/
theorem Ready.enroll {r : Registration κ ξ} (h : Ready ks s)
    (hin : s.lifecycle = .starting ∨ s.lifecycle = .started → r.ticket ∈ ks) (c : CallId) :
    Ready ks ((s.enroll r).without c) := by
  obtain ⟨hl, hcalls, -, htickets⟩ := enroll_same s r c
  refine ⟨fun d r' hd => ?_, fun hst k hk => ?_, fun hst x hx left hleft k hk => ?_⟩
  · rw [hcalls] at hd
    exact h.late d r' (mem_without hd)
  · rw [hl] at hst
    rcases (htickets k).1 hk with rfl | hk
    · exact hin (.inr hst)
    · exact h.started hst k hk
  · rw [hl] at hst
    rw [hcalls] at hx
    rcases (htickets k).1 hk with rfl | hk
    · exact .inl (hin (.inl hst))
    · exact h.starting hst x (mem_without hx) left hleft k hk

theorem Takes.ready (ht : Takes c s p t turn) (hs : Sound us s) (hp : ⟨c, p⟩ ∈ s.calls)
    (h : Ready ks s) : Ready ks t := by
  induction ht with
  | waits s p => exact h
  | alike ha _ ih => exact ih (hs.goesOn ha.goesOn) (ha.calls ▸ hp) (h.alike ha)
  | unqueues _ _ ih =>
    exact ih ((Move.shifts hp .unqueue).sound hs) (mem_setPhase_self hp)
      (h.setPhase (by simp) (by simp [CallPhase.left?]) c)
  | @opens s t turn hpending _ ih =>
    have hp' : ⟨c, .opening⟩ ∈ ({ s with lifecycle := .starting } : TaskSet κ ξ).calls := hp
    have hquiet := hs.not_isStartup (by simp [hpending]) (by simp [hpending])
    refine ih ((Move.opens hp hpending).sound hs) (mem_setPhase_self hp') ⟨?_, nofun, ?_⟩
    · intro d r hd
      rcases mem_setPhase hd with heq | ⟨hd, -⟩
      · cases hes : s.registry.schedule <;> simp [hes, CallPhase.before] at heq
      · exact h.late d r hd
    · intro _ x hx left hleft k hk
      rcases mem_setPhase hx with rfl | ⟨hx, -⟩
      · obtain rfl : s.registry.schedule = left := by simpa using hleft
        obtain ⟨r, hr, rfl⟩ := mem_tickets.1 hk
        exact .inr ⟨r.entry, Registry.mem_schedule hr, rfl⟩
      · simpa [CallPhase.isStartup_of_left? hleft] using hquiet x hx
  | passes _ ht => exact (h.without c).alike ht
  | fails _ ht => exact (h.without c).alike ht
  | expires _ _ ht => exact (h.without c).alike ht
  | @prepares s t next rest _ ht =>
    have hset : Ready ks (s.setPhase c (.preparing next rest)) := by
      refine h.setPhase (by simp) (fun hl left hleft => ?_) c
      exact h.starting hl ⟨c, .checking next rest⟩ hp left hleft
    exact hset.alike ht
  | @starts s t b hl ht =>
    have hstarting : s.lifecycle = .starting := (hs.starting _ hp rfl).resolve_right hl
    exact (h.launched hstarting hp b).alike ht
  | givesUp ht => exact (h.givenUp c).alike ht
  | comesLate _ _ ht => exact (h.setPhase (by simp) (by simp [CallPhase.left?]) c).alike ht
  | refuses _ ht => exact (h.without c).alike ht
  | @enrolls s t p r hphase hr ht =>
    refine (h.enroll (fun hunder => ?_) c).alike ht
    -- who comes in before startup is not ready, and a late registration is
    rcases hphase with ⟨-, hno⟩ | rfl
    · rcases hunder with hst | hst <;> simp [isUnderway, hst] at hno
    · exact h.late c r hp
  | loses _ ht => exact (h.without c).alike ht
  | demolishes ht => exact (h.cleared.without c).alike ht
  | drains ht => exact (h.cleared.setPhase (by simp) (by simp [CallPhase.left?]) c).alike ht
  | ends ht => exact (h.without c).alike ht

/-! ## Histories -/

/-- On whose behalf an `init` has succeeded. -/
def completed (h : List (SetOccurrence κ ξ)) : List CallId :=
  h.filterMap fun o =>
    match o.before.outcome? o.event with
    | some (k, .ok _) => some k
    | _ => none

theorem mem_completed (h : List (SetOccurrence κ ξ)) {k : CallId}
    (hk : s.outcome? e = some (k, .ok ())) : k ∈ completed (h ++ [⟨s, e⟩]) := by
  simp [completed, hk]

theorem ready_of_run (hrun : (setSystem κ ξ).Run h s) : Ready (completed h) s := by
  induction hrun with
  | start hstart =>
    obtain ⟨name, pool, rfl⟩ := hstart
    exact ⟨by simp, nofun, nofun⟩
  | @next h s e hrun hall ih =>
    have hs := sound_of_run hrun
    have ho := orderly_of_run hrun
    have ih : Ready (completed (h ++ [⟨s, e⟩])) s := ih.mono fun k hk => by
      rw [completed, List.filterMap_append]
      exact List.mem_append_left _ hk
    suffices hnext : Ready (completed (h ++ [⟨s, e⟩])) (s.perform e).1 from
      ⟨hnext.late, hnext.started, hnext.starting⟩
    cases hc : e.caller? with
    | none =>
      have hw := wanes_of_perform hs hall hc
      exact ih.fewer hw.lifecycle hw.calls fun k hk => (hw.registry.map _).subset hk
    | some c =>
      obtain ⟨turn, -, hgives⟩ := gives_of_perform hs hall hc
      have hentered := hs.entered hall
      generalize (s.perform e).1 = t at hgives
      cases hgives with
      | @begins d request b _ _ ht =>
        exact ht.ready hentered (mem_addCall_self _ _ _) (ih.addCall d request)
      | polls hp ht => exact ht.ready hs hp ih
      | @comesBack d r b _ _ hp ht =>
        refine ht.ready ((Move.shifts hp (.comeBack _)).sound hs) (mem_setPhase_self hp)
          (ih.setPhase (fun r' hr' => ?_) (by simp [CallPhase.left?]) d)
        obtain rfl := CallPhase.readmitting.inj hr'
        exact mem_completed h (by simp [outcome?, ho.call?_of_mem hp, CallPhase.initTicket?])
      | breaks _ ht => exact (ih.without _).alike ht
      | @goesOn d current rest b _ _ hp ht =>
        have hmove := Move.shifts (s := s.marked current.task.id) hp (.goOn current rest)
        have htickets : (s.marked current.task.id).tickets = s.tickets :=
          tickets_of_stays (Move.marks s current.task.id).quiet.1
        have hmarked : Ready (completed (h ++ [⟨s, .initialized d (.ok ()) b⟩]))
            (s.marked current.task.id) :=
          ih.fewer rfl (fun _ hx => hx) fun _ hk => htickets ▸ hk
        refine ht.ready (hmove.sound (hs.marks current.task.id))
          (mem_setPhase_self (s := s.marked current.task.id) hp)
          (hmarked.setPhase (fun r hr => ?_) (fun hl left hleft k hk => ?_) d)
        · exact absurd hr (by cases rest <;> simp [CallPhase.before])
        · -- what was being initialized is ready now
          obtain rfl : rest = left := by simpa using hleft
          rcases hmarked.starting hl _ hp _ rfl k hk with hk | ⟨e, he, hek⟩
          · exact .inl hk
          · rcases List.mem_cons.1 he with rfl | he
            · exact .inl (mem_completed h
                (by simp [outcome?, ho.call?_of_mem hp, CallPhase.initTicket?, hek]))
            · exact .inr ⟨e, he, hek⟩
      | aborts hp ht =>
        exact ht.ready ((Move.shifts hp (.abort _ _ _)).sound hs) (mem_setPhase_self hp)
          (ih.setPhase (by simp) (by simp [CallPhase.left?]) _)
      | misses _ _ => exact ih

/-! ## Who starts the set -/

/-- Who has looked at the set in order to start it holds the startup lock. -/
def Held (s : TaskSet κ ξ) : Prop :=
  ∀ c p, ⟨c, p⟩ ∈ s.calls → p = .opening ∨ p.isStartup = true → s.startupLock.holder = some c

theorem Held.alike {torn : List TaskRef} (h : Held s) (ht : Alike torn s t) : Held t :=
  fun c p hc hp => ht.holder ⟨c, p⟩ (ht.calls ▸ hc) (h c p (ht.calls ▸ hc) hp)

theorem Held.of_desk (h : Held s) (hd : t.desk = s.desk) : Held t := by
  have hcalls : t.calls = s.calls := (congrArg TaskSet.calls hd :)
  have hlock : t.startupLock = s.startupLock := (congrArg TaskSet.startupLock hd :)
  intro c p hc hp
  rw [hlock]
  exact h c p (hcalls ▸ hc) hp

theorem Held.without (h : Held s) (c : CallId) : Held (s.without c) :=
  fun d p hd hp => h d p (mem_without hd) hp

theorem Held.setPhase (h : Held s)
    (hp : p = .opening ∨ p.isStartup = true → s.startupLock.holder = some c) :
    Held (s.setPhase c p) := by
  intro d q hd hq
  rcases mem_setPhase hd with heq | ⟨hd, -⟩
  · obtain ⟨rfl, rfl⟩ := Call.mk.inj heq
    exact hp hq
  · exact h d q hd hq

/-- A call that begins has not looked at the set. -/
theorem Held.addCall (h : Held s) (c : CallId) (request : Request κ ξ) :
    Held (s.addCall c (request.phase c)) := by
  intro d q hq hopen
  rcases List.mem_append.1 hq with hq | hq
  · exact h d q hq hopen
  · obtain ⟨rfl, rfl⟩ := Call.mk.inj (List.mem_singleton.1 hq)
    cases request <;> simp [Request.phase, CallPhase.isStartup] at hopen

theorem Takes.held (ht : Takes c s p t turn) (hp : ⟨c, p⟩ ∈ s.calls) (h : Held s) : Held t := by
  induction ht with
  | waits s p => exact h
  | alike ha _ ih => exact ih (ha.calls ▸ hp) (h.alike ha)
  | unqueues hheld _ ih => exact ih (mem_setPhase_self hp) (h.setPhase fun _ => hheld)
  | @opens s t turn _ _ ih =>
    have hp' : ⟨c, .opening⟩ ∈ ({ s with lifecycle := .starting } : TaskSet κ ξ).calls := hp
    refine ih (mem_setPhase_self hp') (Held.setPhase (s := { s with lifecycle := .starting }) h ?_)
    exact fun _ => h c _ hp (.inl rfl)
  | passes _ ht => exact (h.without c).alike ht
  | fails _ ht => exact (h.without c).alike ht
  | expires _ _ ht => exact (h.without c).alike ht
  | prepares _ ht => exact (h.setPhase fun _ => h c _ hp (.inr rfl)).alike ht
  | @starts s t b _ ht =>
    have hlaunched : Held (s.launched c b) :=
      Held.of_desk (s := ({ s with lifecycle := .started, isRooted := true, rootCancelled := b } :
        TaskSet κ ξ).without c) (h.without c) (desk_foldl desk_startLoop _ _)
    exact hlaunched.alike ht
  | @givesUp s t current source ht =>
    have hgivenUp : Held (s.givenUp c) := by
      unfold givenUp
      split <;> exact h.without c
    exact hgivenUp.alike ht
  | comesLate _ _ ht => exact (h.setPhase (by simp [CallPhase.isStartup])).alike ht
  | refuses _ ht => exact (h.without c).alike ht
  | enrolls _ _ ht => exact ((h.of_desk (desk_enroll _ _)).without c).alike ht
  | loses _ ht => exact (h.without c).alike ht
  | @demolishes s t ht =>
    have hcleared : Held s.cleared :=
      Held.of_desk (s := { s with lifecycle := .terminated }) h (desk_cleared s)
    exact (hcleared.without c).alike ht
  | @drains s t ht =>
    have hcleared : Held s.cleared :=
      Held.of_desk (s := { s with lifecycle := .terminated }) h (desk_cleared s)
    exact (hcleared.setPhase (by simp [CallPhase.isStartup])).alike ht
  | ends ht => exact (h.without c).alike ht

theorem dropped_of_desk (h : t.desk = s.desk) : t.dropped = s.dropped :=
  (congrArg TaskSet.dropped h :)

/-- An event that is no call's turn leaves calls and locks alone, unless it drops a call. -/
theorem desk_of_perform (hc : e.caller? = none) : (∃ c, e = .abandon c) ∨
    (s.perform e).1.desk = { s.desk with dropped := (s.perform e).1.dropped } := by
  have hsame : (s.perform e).1.desk = s.desk →
      (s.perform e).1.desk = { s.desk with dropped := (s.perform e).1.dropped } := fun hd => by
    rw [dropped_of_desk hd]
    exact hd
  cases e with
  | abandon c => exact .inl ⟨c, rfl⟩
  | unregister task => exact .inr (hsame (desk_unregister s task))
  | pollLoop l now => exact .inr (hsame (desk_pollLoop s l now))
  | ran l now ending => exact .inr (hsame (desk_ran s l now ending))
  | reported l poolName result => exact .inr (hsame (desk_reported s l poolName result))
  | killLoop l => exact .inr (hsame (desk_killLoop s l))
  | cancelRoot => exact .inr (hsame (desk_cancelRoot s))
  | drop =>
    have hdropped : s.drop.dropped = true :=
      dropped_of_desk (s := { s with dropped := true }) (desk_drop s)
    refine .inr ?_
    show s.drop.desk = { s.desk with dropped := s.drop.dropped }
    rw [hdropped]
    exact desk_drop s
  | _ => contradiction

theorem Takes.dropped (ht : Takes c s p t turn) : t.dropped = s.dropped := by
  have hcleared : ∀ u : TaskSet κ ξ, u.cleared.dropped = u.dropped := fun u =>
    dropped_of_desk (s := { u with lifecycle := .terminated }) (desk_cleared u)
  induction ht with
  | waits s p => rfl
  | alike ha _ ih => exact ih.trans ha.goesOn.dropped
  | unqueues _ _ ih => exact ih
  | opens _ _ ih => exact ih
  | passes _ ht => exact ht.goesOn.dropped
  | fails _ ht => exact ht.goesOn.dropped
  | expires _ _ ht => exact ht.goesOn.dropped
  | prepares _ ht => exact ht.goesOn.dropped
  | @starts s t b _ ht =>
    have hlaunched : (s.launched c b).dropped = s.dropped :=
      dropped_of_desk (s := ({ s with
        lifecycle := .started, isRooted := true, rootCancelled := b } : TaskSet κ ξ).without c)
        (desk_foldl desk_startLoop _ _)
    exact ht.goesOn.dropped.trans hlaunched
  | givesUp ht =>
    refine ht.goesOn.dropped.trans ?_
    unfold givenUp
    split <;> rfl
  | comesLate _ _ ht => exact ht.goesOn.dropped
  | refuses _ ht => exact ht.goesOn.dropped
  | @enrolls s t p r _ _ ht =>
    have henrolled : (s.enroll r).dropped = s.dropped := dropped_of_desk (desk_enroll s r)
    exact ht.goesOn.dropped.trans henrolled
  | loses _ ht => exact ht.goesOn.dropped
  | demolishes ht => exact ht.goesOn.dropped.trans (hcleared _)
  | drains ht => exact ht.goesOn.dropped.trans (hcleared _)
  | ends ht => exact ht.goesOn.dropped

/-- Only the owner lets a set go. -/
theorem dropped_of_perform (hs : Sound (begun h) s) (hall : allows h s e = true) (he : e ≠ .drop) :
    (s.perform e).1.dropped = s.dropped := by
  cases hc : e.caller? with
  | none =>
    cases e with
    | abandon c =>
      show (s.abandon c).dropped = s.dropped
      unfold abandon
      split
      · exact (alike_endCall s c).goesOn.dropped
      · rfl
    | unregister task => exact dropped_of_desk (desk_unregister s task)
    | pollLoop l now => exact dropped_of_desk (desk_pollLoop s l now)
    | ran l now ending => exact dropped_of_desk (desk_ran s l now ending)
    | reported l poolName result => exact dropped_of_desk (desk_reported s l poolName result)
    | killLoop l => exact dropped_of_desk (desk_killLoop s l)
    | cancelRoot => exact dropped_of_desk (desk_cancelRoot s)
    | drop => exact absurd rfl he
    | _ => contradiction
  | some c =>
    obtain ⟨turn, -, hgives⟩ := gives_of_perform hs hall hc
    generalize (s.perform e).1 = t at hgives
    cases hgives with
    | begins ht => exact ht.dropped
    | polls _ ht => exact ht.dropped
    | comesBack _ ht => exact ht.dropped
    | breaks _ ht => exact ht.goesOn.dropped
    | goesOn _ ht => exact ht.dropped
    | aborts _ ht => exact ht.dropped
    | misses _ _ => rfl

theorem held_of_run (hrun : (setSystem κ ξ).Run h s) : Held s := by
  induction hrun with
  | start hstart =>
    obtain ⟨name, pool, rfl⟩ := hstart
    exact fun c p hc => absurd hc List.not_mem_nil
  | @next h s e hrun hall ih =>
    have hs := sound_of_run hrun
    suffices hnext : Held (s.perform e).1 from hnext
    cases hc : e.caller? with
    | none =>
      rcases desk_of_perform (s := s) hc with ⟨c, rfl⟩ | hdesk
      · show Held (s.abandon c)
        unfold abandon
        split
        · exact (ih.without c).alike (alike_endCall s c)
        · exact ih
      · exact Held.of_desk (s := { s with dropped := (s.perform e).1.dropped }) ih hdesk
    | some c =>
      obtain ⟨turn, -, hgives⟩ := gives_of_perform hs hall hc
      generalize (s.perform e).1 = t at hgives
      cases hgives with
      | begins ht =>
        exact ht.held (mem_addCall_self _ _ _) (ih.addCall _ _)
      | polls hp ht => exact ht.held hp ih
      | comesBack hp ht =>
        exact ht.held (mem_setPhase_self hp) (ih.setPhase (by simp [CallPhase.isStartup]))
      | breaks _ ht => exact (ih.without _).alike ht
      | @goesOn d current rest b _ _ hp ht =>
        refine ht.held (mem_setPhase_self (s := s.marked current.task.id) hp)
          (Held.setPhase (s := s.marked current.task.id) ih fun _ => ?_)
        exact ih d _ hp (.inr rfl)
      | aborts hp ht =>
        exact ht.held (mem_setPhase_self hp) (ih.setPhase fun _ => ih _ _ hp (.inr rfl))
      | misses _ _ => exact ih

/-! ## Startups that are left unfinished -/

/-- A startup that has taken its snapshot is dropped, as it is when an `init` panics. -/
def AbandonsStartup (o : SetOccurrence κ ξ) : Prop :=
  ∃ c p, o.event = .abandon c ∧ ⟨c, p⟩ ∈ o.before.calls ∧ p.isStartup = true

/-- Who leaves a set starting is starting it, or has found it so. -/
theorem Takes.startup (ht : Takes c s p t turn) (hp : ⟨c, p⟩ ∈ s.calls)
    (hl : t.lifecycle = .starting) : (∃ q, ⟨c, q⟩ ∈ t.calls ∧ q.isStartup = true) ∨
      p.isStartup = false ∧ s.lifecycle = .starting := by
  induction ht with
  | waits s p =>
    cases hst : p.isStartup with
    | true => exact .inl ⟨p, hp, hst⟩
    | false => exact .inr ⟨rfl, hl⟩
  | alike ha _ ih => exact ha.lifecycle ▸ ih (ha.calls ▸ hp) hl
  | unqueues _ _ ih => exact (ih (mem_setPhase_self hp) hl).imp_right fun h => ⟨rfl, h.2⟩
  | @opens s t turn _ _ ih =>
    have hp' : ⟨c, .opening⟩ ∈ ({ s with lifecycle := .starting } : TaskSet κ ξ).calls := hp
    refine .inl ((ih (mem_setPhase_self hp') hl).resolve_right fun h => ?_)
    simp at h
  | passes _ ht => exact .inr ⟨rfl, ht.lifecycle.symm.trans hl⟩
  | fails hl' ht => exact nomatch hl'.symm.trans (ht.lifecycle.symm.trans hl)
  | expires hl' _ ht => exact nomatch hl'.symm.trans (ht.lifecycle.symm.trans hl)
  | prepares _ ht => exact .inl ⟨_, ht.calls ▸ mem_setPhase_self hp, rfl⟩
  | @starts s t b _ ht =>
    have hstarted : (s.launched c b).lifecycle = .started := (startLoops_same _ _).1
    exact nomatch hstarted.symm.trans (ht.lifecycle.symm.trans hl)
  | @givesUp s t current source ht =>
    rw [ht.lifecycle] at hl
    by_cases hterminated : s.lifecycle = Lifecycle.terminated <;>
      simp [givenUp, without, hterminated] at hl
  | comesLate _ _ ht => exact .inr ⟨rfl, ht.lifecycle.symm.trans hl⟩
  | refuses _ ht => exact .inr ⟨rfl, ht.lifecycle.symm.trans hl⟩
  | @enrolls s t p r hphase _ ht =>
    refine .inr ⟨?_, (enroll_same s r c).1.symm.trans (ht.lifecycle.symm.trans hl)⟩
    rcases hphase with ⟨rfl, -⟩ | rfl <;> rfl
  | loses _ ht => exact .inr ⟨rfl, ht.lifecycle.symm.trans hl⟩
  | demolishes ht => exact nomatch (lifecycle_cleared _).symm.trans (ht.lifecycle.symm.trans hl)
  | drains ht => exact nomatch (lifecycle_cleared _).symm.trans (ht.lifecycle.symm.trans hl)
  | ends ht => exact .inr ⟨rfl, ht.lifecycle.symm.trans hl⟩

/-- A startup that succeeds has started the set, or nobody else is starting it. -/
theorem Takes.succeeds (ht : Takes c s p t turn) (hk : p.kind = .init)
    (hret : turn = .returned (.ok ())) (hp : ⟨c, p⟩ ∈ s.calls) (hheld : Held s) :
    t.lifecycle = .started ∨ (t.lifecycle = .starting ∧ s.lifecycle = .starting) ∧
      p.isStartup = false ∧ ∀ x ∈ s.calls, x.phase.isStartup = true → x.id = c := by
  induction ht with
  | alike ha _ ih =>
    rw [← ha.calls, ← ha.lifecycle]
    exact ih hk hret (ha.calls ▸ hp) (hheld.alike ha)
  | unqueues hlock _ ih =>
    have hnext := ih rfl hret (mem_setPhase_self hp) (hheld.setPhase fun _ => hlock)
    refine hnext.imp_right fun h => ⟨h.1, rfl, fun x hx hst => ?_⟩
    by_contra hne
    exact hne (h.2.2 x ((mem_setPhase_of_ne hne).2 hx) hst)
  | @opens s t turn _ _ ih =>
    have hp' : ⟨c, .opening⟩ ∈ ({ s with lifecycle := .starting } : TaskSet κ ξ).calls := hp
    have hheld' : Held ({ s with lifecycle := .starting } : TaskSet κ ξ) := hheld
    refine .inl ((ih (CallPhase.kind_before _) hret (mem_setPhase_self hp')
      (hheld'.setPhase fun _ => hheld c _ hp (.inl rfl))).resolve_right fun h => ?_)
    simp at h
  | passes hl ht =>
    rw [ht.lifecycle]
    refine hl.symm.imp_right fun hl => ⟨⟨hl, hl⟩, rfl, fun x hx hst => ?_⟩
    -- both hold the startup lock
    have hlock := (hheld x.id x.phase hx (.inr hst)).symm.trans (hheld c _ hp (.inl rfl))
    exact Option.some.inj hlock
  | @starts s t b _ ht =>
    have hstarted : (s.launched c b).lifecycle = .started := (startLoops_same _ _).1
    exact .inl (ht.lifecycle.trans hstarted)
  | fails _ _ => exact nomatch hret
  | expires _ _ _ => exact nomatch hret
  | givesUp _ => exact nomatch hret
  | enrolls hphase _ _ => rcases hphase with ⟨rfl, -⟩ | rfl <;> contradiction
  | _ => contradiction

theorem Gives.startup (hgives : Gives s e t turn) (hs : Sound (begun h) s) (ho : Orderly s)
    (hall : allows h s e = true) (hc : e.caller? = some c) (hl : t.lifecycle = .starting) :
    (∃ q, ⟨c, q⟩ ∈ t.calls ∧ q.isStartup = true) ∨
      s.lifecycle = .starting ∧ ∀ q, ⟨c, q⟩ ∈ s.calls → q.isStartup = false := by
  have honly : ∀ {p : CallPhase κ ξ}, ⟨c, p⟩ ∈ s.calls → p.isStartup = false →
      ∀ q, ⟨c, q⟩ ∈ s.calls → q.isStartup = false := fun hp hst q hq => ho.phase_eq hp hq ▸ hst
  cases hgives with
  | begins ht =>
    obtain rfl := Option.some.inj hc
    refine (ht.startup (mem_addCall_self _ _ _) hl).imp_right fun hst =>
      ⟨hst.2, fun q hq => absurd (hs.calls _ hq) (allows_begin.1 hall).2⟩
  | polls hp ht =>
    obtain rfl := Option.some.inj hc
    exact (ht.startup hp hl).imp_right fun hst => ⟨hst.2, honly hp hst.1⟩
  | comesBack hp ht =>
    obtain rfl := Option.some.inj hc
    exact (ht.startup (mem_setPhase_self hp) hl).imp_right fun hst => ⟨hst.2, honly hp rfl⟩
  | breaks hp ht =>
    obtain rfl := Option.some.inj hc
    exact .inr ⟨ht.lifecycle.symm.trans hl, honly hp rfl⟩
  | @goesOn d current rest b _ _ hp ht =>
    obtain rfl := Option.some.inj hc
    have hp' := mem_setPhase_self (s := s.marked current.task.id) (q := .before rest) hp
    refine .inl ((ht.startup hp' hl).resolve_right fun hst => ?_)
    simp at hst
  | aborts hp ht =>
    obtain rfl := Option.some.inj hc
    exact .inl ((ht.startup (mem_setPhase_self hp) hl).resolve_right nofun)
  | misses _ _ =>
    by_cases hst : ∃ q, ⟨c, q⟩ ∈ s.calls ∧ q.isStartup = true
    · exact .inl hst
    · exact .inr ⟨hl, fun q hq => Bool.eq_false_iff.2 fun hq' => hst ⟨q, hq, hq'⟩⟩

/-- A set is starting while a startup is in progress, or because one was abandoned. -/
theorem startup_of_starting (hrun : (setSystem κ ξ).Run h s) (hl : s.lifecycle = .starting) :
    (∃ x ∈ s.calls, x.phase.isStartup = true) ∨ ∃ o ∈ h, AbandonsStartup o := by
  induction hrun with
  | start hstart =>
    obtain ⟨name, pool, rfl⟩ := hstart
    contradiction
  | @next h s e hrun hall ih =>
    have hs := sound_of_run hrun
    have hl : (s.perform e).1.lifecycle = .starting := hl
    suffices hnext : (∃ x ∈ (s.perform e).1.calls, x.phase.isStartup = true) ∨
        ∃ o ∈ h ++ [⟨s, e⟩], AbandonsStartup o from hnext
    by_cases hab : AbandonsStartup ⟨s, e⟩
    · exact .inr ⟨_, List.mem_append_right _ (List.mem_singleton_self _), hab⟩
    -- a startup that was in progress before the event, and that the event leaves alone
    have hstill : s.lifecycle = .starting →
        (∀ x ∈ s.calls, x.phase.isStartup = true → x ∈ (s.perform e).1.calls) →
        (∃ x ∈ (s.perform e).1.calls, x.phase.isStartup = true) ∨
          ∃ o ∈ h ++ [⟨s, e⟩], AbandonsStartup o := by
      intro hst hkeep
      rcases ih hst with ⟨x, hx, hx'⟩ | ⟨o, ho, ho'⟩
      · exact .inl ⟨x, hkeep x hx hx', hx'⟩
      · exact .inr ⟨o, List.mem_append_left _ ho, ho'⟩
    cases hc : e.caller? with
    | none =>
      refine hstill ((wanes_of_perform hs hall hc).lifecycle ▸ hl) fun x hx hst => ?_
      rcases desk_of_perform (s := s) hc with ⟨c, rfl⟩ | hdesk
      · have hne : x.id ≠ c := fun hid => hab ⟨c, x.phase, rfl, hid ▸ hx, hst⟩
        show x ∈ (s.abandon c).calls
        unfold abandon
        split
        · rw [(alike_endCall s c).calls, mem_without_of_ne hne]
          exact hx
        · exact hx
      · have hcalls : (s.perform e).1.calls = s.calls := (congrArg TaskSet.calls hdesk :)
        exact hcalls ▸ hx
    | some c =>
      obtain ⟨turn, -, hgives⟩ := gives_of_perform hs hall hc
      rcases hgives.startup hs (orderly_of_run hrun) hall hc hl with ⟨q, hq, hq'⟩ | ⟨hst, hnot⟩
      · exact .inl ⟨_, hq, hq'⟩
      · refine hstill hst fun x hx hx' => (hgives.others hc ?_).2 hx
        rintro rfl
        simp [hnot x.phase hx] at hx'

/-- Nobody finishes an abandoned startup. -/
theorem unfinished_of_run (hrun : (setSystem κ ξ).Run h s) (ho : o ∈ h)
    (hab : AbandonsStartup o) : s.lifecycle = .starting ∨ s.lifecycle = .terminated := by
  obtain ⟨pre, post, heq⟩ := List.append_of_mem ho
  obtain ⟨hpre, -, -⟩ := hrun.split heq
  obtain ⟨s', e⟩ := o
  obtain ⟨c, p, rfl, hp, hst⟩ := hab
  have hs := sound_of_run hpre
  have hend : Alike [] (s'.without c) (s'.abandon c) := by
    unfold abandon
    rw [if_pos (List.any_eq_true.2 ⟨_, hp, by simp⟩)]
    exact alike_endCall s' c
  have hl : s'.lifecycle = .starting ∨ s'.lifecycle = .terminated := hs.starting _ hp hst
  have hover : IsOver (s'.abandon c) := by
    refine ⟨fun hno => ?_, fun x hx => Bool.eq_false_iff.2 fun hx' => ?_⟩
    · have hno : s'.lifecycle = .pending := hend.lifecycle.symm.trans hno
      simp [hno] at hl
    · rw [hend.calls] at hx
      have hid : x.id = c := hs.single x (mem_without hx) _ hp hx' hst
      subst hid
      exact not_mem_without hx
  refine (hrun.since (P := fun _ s => IsOver s ∧
    (s.lifecycle = .starting ∨ s.lifecycle = .terminated)) ?_ (fun _ s e hrun hall hp => ?_) heq).2
  · exact ⟨hover.collect, hend.lifecycle.symm ▸ hl⟩
  · obtain ⟨hover', hl'⟩ := hp.1.perform (sound_of_run hrun) hall
    refine ⟨hover'.collect, ?_⟩
    rcases hl' with hl' | hl'
    · exact hp.2.imp hl'.trans hl'.trans
    · exact .inr hl'

/-! ## Successful startups -/

/-- The set has started: what is registered has been initialized and has a loop of its own, which
has not failed, and has come to its end only if it was cancelled or dropped. -/
structure IsUp (h : List (SetOccurrence κ ξ)) (s : TaskSet κ ξ) : Prop where
  lifecycle : s.lifecycle = .started
  initialized : ∀ r ∈ s.registry, r.ticket ∈ completed h
  polled : ∀ r ∈ s.registry, IsPolled (killed h) s r

theorem isUp_of_started (hrun : (setSystem κ ξ).Run h s) (hl : s.lifecycle = .started) :
    IsUp h s :=
  ⟨hl, fun _ hr => (ready_of_run hrun).started hl _ (mem_tickets.2 ⟨_, hr, rfl⟩),
    tended_of_run hrun hl⟩

/-- The set that a successful startup leaves behind has started, or a startup was abandoned. -/
theorem succeeds_of_returned (hrun : (setSystem κ ξ).Run h s) (hall : allows h s e = true)
    (hbegan : Began (h ++ [⟨s, e⟩]) c .init) (hret : Returns ⟨s, e⟩ c (.ok ())) :
    (s.perform e).1.lifecycle = .started ∨
      (s.perform e).1.lifecycle = .starting ∧ ∃ o ∈ h, AbandonsStartup o := by
  obtain ⟨hc, hanswer⟩ := hret
  have hs := sound_of_run hrun
  have hheld := held_of_run hrun
  have hold : ∀ {p : CallPhase κ ξ}, ⟨c, p⟩ ∈ s.calls → p.kind = .init :=
    kind_of_began hrun hall hbegan
  -- with nobody else starting the set, it is starting because somebody has given up doing so
  have habandoned : s.lifecycle = .starting → (∀ x ∈ s.calls, x.phase.isStartup = false) →
      ∃ o ∈ h, AbandonsStartup o := fun hl hno =>
    (startup_of_starting hrun hl).resolve_left fun ⟨x, hx, hst⟩ => by simp [hno x hx] at hst
  obtain ⟨turn, hturn, hgives⟩ := gives_of_perform hs hall hc
  have hreturned : turn = .returned (.ok ()) := SetAnswer.call.inj (hturn.symm.trans hanswer)
  generalize (s.perform e).1 = t at hgives
  cases hgives with
  | @begins d request b _ _ ht =>
    obtain rfl := Option.some.inj hc
    have hkind : request.kind = .init := kind_of_begin hrun hall hbegan
    have hnext := ht.succeeds ((request.kind_phase d).trans hkind) hreturned
      (mem_addCall_self _ _ _) (hheld.addCall _ _)
    refine hnext.imp_right fun hst =>
      ⟨hst.1.1, habandoned hst.1.2 fun x hx => Bool.eq_false_iff.2 fun hx' => ?_⟩
    have hid : x.id = d := hst.2.2 x (List.mem_append_left _ hx) hx'
    exact (allows_begin.1 hall).2 (hid ▸ hs.calls x hx)
  | polls hp ht =>
    obtain rfl := Option.some.inj hc
    refine (ht.succeeds (hold hp) hreturned hp hheld).imp_right fun hst =>
      ⟨hst.1.1, habandoned hst.1.2 fun x hx => Bool.eq_false_iff.2 fun hx' => ?_⟩
    obtain rfl := hst.2.2 x hx hx'
    rw [(orderly_of_run hrun).phase_eq hx hp, hst.2.1] at hx'
    contradiction
  | comesBack hp _ =>
    obtain rfl := Option.some.inj hc
    cases hold hp
  | breaks hp _ =>
    obtain rfl := Option.some.inj hc
    cases hold hp
  | @goesOn d current rest b _ _ hp ht =>
    obtain rfl := Option.some.inj hc
    have hheld' : Held ((s.marked current.task.id).setPhase d (.before rest)) :=
      Held.setPhase (s := s.marked current.task.id) hheld fun _ => hheld d _ hp (.inr rfl)
    refine .inl ((ht.succeeds (CallPhase.kind_before _) hreturned
      (mem_setPhase_self (s := s.marked current.task.id) hp) hheld').resolve_right fun hst => ?_)
    simp at hst
  | aborts hp ht =>
    obtain rfl := Option.some.inj hc
    exact .inl ((ht.succeeds rfl hreturned (mem_setPhase_self hp)
      (hheld.setPhase fun _ => hheld _ _ hp (.inr rfl))).resolve_right fun hst => nomatch hst.2.1)
  | misses _ _ => contradiction

/-- A startup that succeeds leaves a set that is up, unless an earlier startup was abandoned. In
that case the set is still starting, and will never have started. -/
theorem up_of_init (hrun : (setSystem κ ξ).Run h s) (heq : h = pre ++ o :: post)
    (hbegan : Began (pre ++ [o]) c .init) (hret : Returns o c (.ok ())) :
    (IsUp (pre ++ [o]) ((setSystem κ ξ).after o) ∧ ∀ o' ∈ pre, ¬AbandonsStartup o') ∨
      (((setSystem κ ξ).after o).lifecycle = .starting ∧ s.lifecycle ≠ .started ∧
        ∃ o' ∈ pre, AbandonsStartup o') := by
  obtain ⟨hpre, hall, hafter⟩ := hrun.split heq
  rcases succeeds_of_returned hpre hall hbegan hret with hl | ⟨hl, o', ho', hab⟩
  · refine .inl ⟨isUp_of_started hafter hl, fun o' ho' hab => ?_⟩
    have hl : ((setSystem κ ξ).after o).lifecycle = .started := hl
    have hst := unfinished_of_run hafter (List.mem_append_left _ ho') hab
    simp [hl] at hst
  · refine .inr ⟨hl, fun hst => ?_, o', ho', hab⟩
    have hno := unfinished_of_run hrun (heq ▸ List.mem_append_left _ ho') hab
    simp [hst] at hno

/-- A task is registered, startup initializes it while another registers itself, and the set is
up. -/
theorem up_of_init_midway : ∃ (h : List (SetOccurrence Unit Unit)) (s : TaskSet Unit Unit)
    (pre post : List (SetOccurrence Unit Unit)) (o : SetOccurrence Unit Unit),
    (setSystem Unit Unit).Run h s ∧ h = pre ++ o :: post ∧ Began (pre ++ [o]) 1 .init ∧
    Returns o 1 (.ok ()) ∧ ((setSystem Unit Unit).after o).registry.length = 1 ∧
    ((IsUp (pre ++ [o]) ((setSystem Unit Unit).after o) ∧ ∀ o' ∈ pre, ¬AbandonsStartup o') ∨
      (((setSystem Unit Unit).after o).lifecycle = .starting ∧ s.lifecycle ≠ .started ∧
        ∃ o' ∈ pre, AbandonsStartup o')) := by
  obtain ⟨h, s, hrun, hcheck⟩ := System.exists_run_of_replay (S := setSystem Unit Unit)
    (starts_new "s" none)
    [.begin 0 (.register ⟨0, "a"⟩ [] {} none ()) false, .begin 1 .init false,
      .begin 2 (.register ⟨1, "b"⟩ [] {} none ()) false, .initialized 1 (.ok ()) false,
      .initialized 2 (.ok ()) false]
    (fun h _ => decide (Began (h.take 3) 1 .init) && ((h[3]?).any fun o =>
      decide (Returns o 1 (.ok ())) && ((setSystem Unit Unit).after o).registry.length == 1))
    (by decide +kernel)
  simp only [Bool.and_eq_true, decide_eq_true_eq, beq_iff_eq, Option.any_eq_true] at hcheck
  obtain ⟨hbegan, o, ho, hret, hlen⟩ := hcheck
  have hsplit : h = h.take 3 ++ o :: h.drop 4 := by
    obtain ⟨hi, rfl⟩ := List.getElem?_eq_some_iff.1 ho
    simp
  exact ⟨h, s, h.take 3, h.drop 4, o, hrun, hsplit, hbegan.append [o], hret, hlen,
    up_of_init hrun hsplit (hbegan.append [o]) hret⟩

/-- The `init` of a task panics during startup. The next startup succeeds, and the set is not
up. -/
theorem init_succeeds_after_panic : ¬ ∀ (h : List (SetOccurrence Unit Unit))
    (s : TaskSet Unit Unit) (pre post : List (SetOccurrence Unit Unit))
    (o : SetOccurrence Unit Unit) (c : CallId), (setSystem Unit Unit).Run h s →
    h = pre ++ o :: post → Began (pre ++ [o]) c .init → Returns o c (.ok ()) →
    IsUp (pre ++ [o]) ((setSystem Unit Unit).after o) := by
  intro hclaim
  obtain ⟨h, s, hrun, hcheck⟩ := System.exists_run_of_replay (S := setSystem Unit Unit)
    (starts_new "s" none)
    [.begin 0 (.register ⟨0, "a"⟩ [] {} none ()) false, .begin 1 .init false, .abandon 1,
      .begin 2 .init false]
    (fun h _ => decide (Began h 2 .init) && ((h[3]?).any fun o =>
      decide (Returns o 2 (.ok ())) && ((setSystem Unit Unit).after o).lifecycle == .starting) &&
        h.length == 4)
    (by decide +kernel)
  simp only [Bool.and_eq_true, decide_eq_true_eq, beq_iff_eq, Option.any_eq_true] at hcheck
  obtain ⟨⟨hbegan, o, ho, hret, hl⟩, hlen⟩ := hcheck
  have hsplit : h = h.take 3 ++ [o] := by
    obtain ⟨hi, rfl⟩ := List.getElem?_eq_some_iff.1 ho
    simp [← hlen]
  rw [hsplit] at hbegan
  have hup := hclaim h s _ [] o 2 hrun hsplit hbegan hret
  simpa [hl] using hup.lifecycle

end TaskSet

end Overseer
