import Overseer.Proofs.Supervision.Moves
import Overseer.Proofs.Supervision.Registry

/-!
# Sound sets

`Sound us s` says what holds of a set between any two events if `us` are the numbers of the calls
made so far. Each task has at most one registration, under the number of the call that brought
it. A call that is about to bring one is new to the registry and to the loops. There is at most
one startup, what it has yet to initialize is known, and nobody else will. The newest loop of
a stay is the one that its registration refers to, and no loop exists before the set has started.

Every move keeps a set sound (`Move.sound`), and so does every course (`Course.sound`).
-/

namespace Overseer

variable {κ ξ : Type}

/-- The phase `q` asks for no more than the phase `p` does. -/
structure CallPhase.Within (q p : CallPhase κ ξ) : Prop where
  registration : ∀ r, q.registration? = some r →
    ∃ r', p.registration? = some r' ∧ r'.ticket = r.ticket
  due : List.Sublist q.due p.due
  startup : q.isStartup = true → p.isStartup = true

theorem CallPhase.Within.refl (p : CallPhase κ ξ) : p.Within p :=
  ⟨fun r hr => ⟨r, hr, rfl⟩, .refl _, fun h => h⟩

theorem CallPhase.Shifts.within {p q : CallPhase κ ξ} (h : p.Shifts q) : q.Within p := by
  cases h with
  | unqueue => exact ⟨fun r hr => (nomatch hr), .refl _, fun h => (nomatch h)⟩
  | comeBack r =>
    refine ⟨fun r' hr => ⟨r, rfl, ?_⟩, .refl _, fun h => (nomatch h)⟩
    obtain rfl := Option.some.inj hr
    rfl
  | goOn current rest =>
    refine ⟨fun r hr => by simp at hr, ?_, fun _ => rfl⟩
    rw [CallPhase.due_before]
    exact .refl rest
  | abort current rest source =>
    exact ⟨fun r hr => (nomatch hr), List.nil_sublist _, fun _ => rfl⟩
  | drain => exact ⟨fun r hr => (nomatch hr), .refl _, fun h => (nomatch h)⟩

theorem CallPhase.Shifts.late {p q : CallPhase κ ξ} (h : p.Shifts q) (hq : q.isLate = true) :
    p.isLate = true := by
  cases h with
  | comeBack r => rfl
  | goOn current rest => simp at hq
  | _ => exact hq

namespace TaskSet

/-- What holds of a set between any two events if `us` are the calls so far. -/
structure Sound (us : List CallId) (s : TaskSet κ ξ) : Prop where
  tasks : (List.map (·.task.id) s.registry).Nodup
  tickets : s.tickets.Nodup
  registered : ∀ k ∈ s.tickets, k ∈ us
  calls : ∀ x ∈ s.calls, x.id ∈ us
  /-- A call brings a registration of its own. -/
  own : ∀ x ∈ s.calls, ∀ r, x.phase.registration? = some r → r.ticket = x.id
  new : ∀ x ∈ s.calls, ∀ r, x.phase.registration? = some r →
    x.id ∉ s.tickets ∧ ∀ y ∈ s.loops, y.ticket ≠ x.id
  single : ∀ x ∈ s.calls, ∀ y ∈ s.calls, x.phase.isStartup = true → y.phase.isStartup = true →
    x.id = y.id
  starting : ∀ x ∈ s.calls, x.phase.isStartup = true →
    s.lifecycle = .starting ∨ s.lifecycle = .terminated
  due : ∀ x ∈ s.calls, (x.phase.due.map (·.ticket)).Nodup
  dueKnown : ∀ x ∈ s.calls, ∀ e ∈ x.phase.due, e.ticket ∈ us
  /-- What startup has yet to initialize is not also on its way in. -/
  dueNew : ∀ x ∈ s.calls, ∀ e ∈ x.phase.due, ∀ y ∈ s.calls, ∀ r,
    y.phase.registration? = some r → y.id ≠ e.ticket
  unopened : s.lifecycle = .pending → ∀ x ∈ s.calls, x.phase.isLate = false
  empty : s.lifecycle = .terminated → s.registry = []
  loopIds : (s.loops.map (·.id)).Nodup
  loopsOld : ∀ x ∈ s.loops, x.id < s.nextLoop
  polled : ∀ x ∈ s.loops, x.ticket ∈ us
  owner : ∀ r ∈ s.registry, ∀ x ∈ s.loops, x.ticket = r.ticket → r.loop = some x.id
  idle : s.loops ≠ [] → s.lifecycle = .started ∨ s.lifecycle = .terminated
  rooted : s.lifecycle = .started → s.dropped = false → s.isRooted = true
  halted : s.rootCancelled = true → ∀ x ∈ s.loops, x.isLive = false

variable {us : List CallId} {s t : TaskSet κ ξ} {torn : List TaskRef} {d : Option Deed}

theorem sound_empty {name : String} {pool : Option PoolId} :
    Sound [] ({ name := name, pool := pool } : TaskSet κ ξ) := by
  refine ⟨?_, ?_, ?_, ?_, ?_, ?_, ?_, ?_, ?_, ?_, ?_, ?_, ?_, ?_, ?_, ?_, ?_, ?_, ?_, ?_⟩ <;>
    simp [TaskSet.tickets]

/-! ## Moves that change little -/

theorem Sound.goesOn (hs : Sound us s) (h : GoesOn torn s t) : Sound us t where
  tasks := by rw [h.registry]; exact hs.tasks
  tickets := by rw [TaskSet.tickets, h.registry]; exact hs.tickets
  registered := by rw [TaskSet.tickets, h.registry]; exact hs.registered
  calls := by rw [h.calls]; exact hs.calls
  own := by rw [h.calls]; exact hs.own
  new := by
    rw [h.calls, TaskSet.tickets, h.registry]
    intro x hx r hr
    refine ⟨(hs.new x hx r hr).1, fun y hy => ?_⟩
    obtain ⟨z, hz, hyz⟩ := h.loops y hy
    rw [hyz.ticket]
    exact (hs.new x hx r hr).2 z hz
  single := by rw [h.calls]; exact hs.single
  starting := by rw [h.calls, h.lifecycle]; exact hs.starting
  due := by rw [h.calls]; exact hs.due
  dueKnown := by rw [h.calls]; exact hs.dueKnown
  dueNew := by rw [h.calls]; exact hs.dueNew
  unopened := by rw [h.calls, h.lifecycle]; exact hs.unopened
  empty := by rw [h.lifecycle, h.registry]; exact hs.empty
  loopIds := h.distinct hs.loopIds
  loopsOld y hy := by
    obtain ⟨x, hx, hyx⟩ := h.loops y hy
    rw [hyx.id, h.nextLoop]
    exact hs.loopsOld x hx
  polled y hy := by
    obtain ⟨x, hx, hyx⟩ := h.loops y hy
    rw [hyx.ticket]
    exact hs.polled x hx
  owner r hr y hy hk := by
    rw [h.registry] at hr
    obtain ⟨x, hx, hyx⟩ := h.loops y hy
    rw [hyx.id]
    exact hs.owner r hr x hx (hyx.ticket.symm.trans hk)
  idle hne := by
    rw [h.lifecycle]
    obtain ⟨y, hy⟩ := List.exists_mem_of_ne_nil _ hne
    obtain ⟨x, hx, _⟩ := h.loops y hy
    exact hs.idle (List.ne_nil_of_mem hx)
  rooted hl hd := by
    rw [h.lifecycle] at hl
    rw [h.dropped] at hd
    exact h.rooted hl hd (hs.rooted hl hd)
  halted hc y hy := by
    rcases h.rootCancelled hc with hc | hall
    · obtain ⟨x, hx, hyx⟩ := h.loops y hy
      exact hyx.stopped (hs.halted hc x hx)
    · exact hall y hy

/-- Calls may end, and they may ask for less. -/
theorem Sound.withCalls (hs : Sound us s) {cs : List (Call κ ξ)}
    (h : ∀ y ∈ cs, ∃ x ∈ s.calls, x.id = y.id ∧ y.phase.Within x.phase)
    (hlate : s.lifecycle = .pending → ∀ y ∈ cs, y.phase.isLate = false) :
    Sound us { s with calls := cs } :=
  { hs with
    calls := fun y hy => by
      obtain ⟨x, hx, hid, _⟩ := h y hy
      exact hid ▸ hs.calls x hx
    own := fun y hy r hr => by
      obtain ⟨x, hx, hid, hw⟩ := h y hy
      obtain ⟨r', hr', hk⟩ := hw.registration r hr
      rw [← hk, ← hid]
      exact hs.own x hx r' hr'
    new := fun y hy r hr => by
      obtain ⟨x, hx, hid, hw⟩ := h y hy
      obtain ⟨r', hr', _⟩ := hw.registration r hr
      rw [← hid]
      exact hs.new x hx r' hr'
    single := fun y hy z hz hys hzs => by
      obtain ⟨x, hx, hid, hw⟩ := h y hy
      obtain ⟨x', hx', hid', hw'⟩ := h z hz
      rw [← hid, ← hid']
      exact hs.single x hx x' hx' (hw.startup hys) (hw'.startup hzs)
    starting := fun y hy hys => by
      obtain ⟨x, hx, _, hw⟩ := h y hy
      exact hs.starting x hx (hw.startup hys)
    due := fun y hy => by
      obtain ⟨x, hx, _, hw⟩ := h y hy
      exact (hs.due x hx).sublist (hw.due.map _)
    dueKnown := fun y hy e he => by
      obtain ⟨x, hx, _, hw⟩ := h y hy
      exact hs.dueKnown x hx e (hw.due.subset he)
    dueNew := fun y hy e he z hz r hr => by
      obtain ⟨x, hx, _, hw⟩ := h y hy
      obtain ⟨x', hx', hid', hw'⟩ := h z hz
      obtain ⟨r', hr', _⟩ := hw'.registration r hr
      rw [← hid']
      exact hs.dueNew x hx e (hw.due.subset he) x' hx' r' hr'
    unopened := hlate }

theorem Sound.without (hs : Sound us s) (c : CallId) : Sound us (s.without c) := by
  exact hs.withCalls (fun y hy => ⟨y, mem_without hy, rfl, .refl _⟩)
    fun hl y hy => hs.unopened hl y (mem_without hy)

theorem mem_setPhase {c : CallId} {q : CallPhase κ ξ} {y : Call κ ξ}
    (h : y ∈ (s.setPhase c q).calls) : y = ⟨c, q⟩ ∨ (y ∈ s.calls ∧ y.id ≠ c) := by
  obtain ⟨x, hx, rfl⟩ := List.mem_map.1 h
  by_cases hid : x.id = c
  · simp [hid]
  · simp [hid, hx]

theorem mem_setPhase_self {c : CallId} {p q : CallPhase κ ξ} (h : ⟨c, p⟩ ∈ s.calls) :
    ⟨c, q⟩ ∈ (s.setPhase c q).calls := List.mem_map.2 ⟨_, h, by simp⟩

theorem Sound.setPhase (hs : Sound us s) {c : CallId} {p q : CallPhase κ ξ}
    (hc : ⟨c, p⟩ ∈ s.calls) (hw : q.Within p)
    (hlate : s.lifecycle = .pending → q.isLate = false) : Sound us (s.setPhase c q) := by
  refine hs.withCalls (fun y hy => ?_) fun hl y hy => ?_
  · rcases mem_setPhase hy with rfl | ⟨hy, _⟩
    · exact ⟨⟨c, p⟩, hc, rfl, hw⟩
    · exact ⟨y, hy, rfl, .refl _⟩
  · rcases mem_setPhase hy with rfl | ⟨hy, _⟩
    · exact hlate hl
    · exact hs.unopened hl y hy

theorem due_eq_nil {p : CallPhase κ ξ} (h : p.isStartup = false) : p.due = [] := by
  cases p with
  | checking next rest => simp [CallPhase.isStartup] at h
  | preparing current rest => simp [CallPhase.isStartup] at h
  | _ => rfl

/-- A startup is under way only while the set is starting, or has been destroyed meanwhile. -/
theorem Sound.not_isStartup (hs : Sound us s) (h : s.lifecycle ≠ .starting)
    (h' : s.lifecycle ≠ .terminated) : ∀ x ∈ s.calls, x.phase.isStartup = false := by
  intro x hx
  refine Bool.eq_false_iff.2 fun hx' => ?_
  rcases hs.starting x hx hx' with hl | hl
  · exact h hl
  · exact h' hl

theorem Sound.loops_eq_nil (hs : Sound us s) (h : s.lifecycle ≠ .started)
    (h' : s.lifecycle ≠ .terminated) : s.loops = [] := by
  by_contra hne
  rcases hs.idle hne with hl | hl
  · exact h hl
  · exact h' hl

/-- Startup takes its snapshot of the registry. -/
theorem Sound.opens (hs : Sound us s) {c : CallId} (hc : ⟨c, .opening⟩ ∈ s.calls)
    (hl : s.lifecycle = .pending) :
    Sound us ({ s with lifecycle := .starting }.setPhase c (.before s.registry.schedule)) := by
  have hquiet := hs.not_isStartup (by simp [hl]) (by simp [hl])
  have hidle := hs.loops_eq_nil (by simp [hl]) (by simp [hl])
  have hmem : ∀ {y}, y ∈ ({ s with lifecycle := .starting }.setPhase c
      (.before s.registry.schedule)).calls →
      y = ⟨c, .before s.registry.schedule⟩ ∨ (y ∈ s.calls ∧ y.phase.isStartup = false) :=
    fun hy => (mem_setPhase hy).imp_right fun h => ⟨h.1, hquiet _ h.1⟩
  exact { hs with
    calls := fun y hy => by
      rcases hmem hy with rfl | ⟨hy, _⟩
      · exact hs.calls ⟨c, .opening⟩ hc
      · exact hs.calls y hy
    own := fun y hy r hr => by
      rcases hmem hy with rfl | ⟨hy, _⟩
      · simp at hr
      · exact hs.own y hy r hr
    new := fun y hy r hr => by
      rcases hmem hy with rfl | ⟨hy, _⟩
      · simp at hr
      · exact hs.new y hy r hr
    single := fun y hy z hz hys hzs => by
      rcases hmem hy with rfl | ⟨_, hy⟩
      · rcases hmem hz with rfl | ⟨_, hz⟩
        · rfl
        · simp [hz] at hzs
      · simp [hy] at hys
    starting := fun _ _ _ => Or.inl rfl
    due := fun y hy => by
      rcases hmem hy with rfl | ⟨_, hy⟩
      · rw [CallPhase.due_before]
        exact Registry.nodup_schedule hs.tickets
      · simp [due_eq_nil hy]
    dueKnown := fun y hy e he => by
      rcases hmem hy with rfl | ⟨_, hy⟩
      · rw [CallPhase.due_before] at he
        exact hs.registered _ (Registry.mem_of_mem_schedule he)
      · simp [due_eq_nil hy] at he
    dueNew := fun y hy e he z hz r hr => by
      rcases hmem hy with rfl | ⟨_, hy⟩
      · rw [CallPhase.due_before] at he
        rcases hmem hz with rfl | ⟨hz, _⟩
        · simp at hr
        · intro hid
          exact (hs.new z hz r hr).1 (hid ▸ Registry.mem_of_mem_schedule he)
      · simp [due_eq_nil hy] at he
    unopened := fun h => nomatch h
    empty := fun h => nomatch h
    idle := fun h => absurd hidle h
    rooted := fun h => nomatch h }

/-! ## Registrations that change, go and come -/

theorem Sound.marks (hs : Sound us s) (id : TaskId) : Sound us { s with
    registry := s.registry.modify id fun r => { r with state := .initialized } } := by
  have htickets : List.map (·.ticket) (s.registry.modify id fun r =>
      { r with state := .initialized }) = s.tickets := Registry.map_modify fun _ => rfl
  have htasks : List.map (·.task.id) (s.registry.modify id fun r =>
      { r with state := .initialized }) = List.map (·.task.id) s.registry :=
    Registry.map_modify fun _ => rfl
  exact { hs with
    tasks := by
      rw [htasks]
      exact hs.tasks
    tickets := by
      rw [TaskSet.tickets, htickets]
      exact hs.tickets
    registered := by
      rw [TaskSet.tickets, htickets]
      exact hs.registered
    new := fun y hy r hr => by
      rw [TaskSet.tickets, htickets]
      exact hs.new y hy r hr
    empty := fun h => by simp [hs.empty h, Registry.modify]
    owner := fun r hr x hx hk => by
      obtain ⟨b, hb, ⟨_, rfl⟩ | ⟨_, rfl⟩⟩ := Registry.mem_modify hr
      · exact hs.owner b hb x hx hk
      · exact hs.owner r hb x hx hk }

theorem Sound.withRegistry (hs : Sound us s) {reg : Registry κ ξ}
    (h : List.Sublist reg s.registry) : Sound us { s with registry := reg } := by
  have htickets : ∀ {k}, k ∈ List.map (·.ticket) reg → k ∈ s.tickets :=
    fun hk => (h.map _).subset hk
  exact { hs with
    tasks := hs.tasks.sublist (h.map _)
    tickets := hs.tickets.sublist (h.map _)
    registered := fun k hk => hs.registered k (htickets hk)
    new := fun y hy r hr =>
      ⟨fun hk => (hs.new y hy r hr).1 (htickets hk), (hs.new y hy r hr).2⟩
    empty := fun hl => by
      have hsub : List.Sublist reg [] := hs.empty hl ▸ h
      exact List.sublist_nil.1 hsub
    owner := fun r hr => hs.owner r (h.subset hr) }

theorem Sound.demolish (hs : Sound us s) :
    Sound us { s with lifecycle := .terminated, registry := [] } :=
  { hs.withRegistry (List.nil_sublist _) with
    starting := fun _ _ _ => Or.inr rfl
    unopened := fun h => nomatch h
    empty := fun _ => rfl
    idle := fun _ => Or.inr rfl
    rooted := fun h => nomatch h }

theorem Sound.drop (hs : Sound us s) : Sound us { s with registry := [], dropped := true } :=
  { hs.withRegistry (List.nil_sublist _) with
    rooted := fun _ h => nomatch h }

/-- No startup is left when the only one is over. -/
theorem Sound.not_isStartup_without (hs : Sound us s) {c : CallId} {p : CallPhase κ ξ}
    (hc : ⟨c, p⟩ ∈ s.calls) (hp : p.isStartup = true) :
    ∀ x ∈ (s.without c).calls, x.phase.isStartup = false := by
  intro x hx
  obtain ⟨hx, hne⟩ := List.mem_filter.1 hx
  refine Bool.eq_false_iff.2 fun hx' => ?_
  have hid := hs.single x hx ⟨c, p⟩ hc hx' hp
  simp [hid] at hne

/-- Startup ends, one way or the other. -/
theorem Sound.settle (hs : Sound us s) {c : CallId} {q : CallPhase κ ξ} (hc : ⟨c, q⟩ ∈ s.calls)
    (hq : q.isStartup = true) (hl : s.lifecycle ≠ .terminated) {lc : Lifecycle} {rooted p : Bool}
    (hlc : lc = .aborted ∨ (lc = .started ∧ rooted = true)) :
    Sound us ({ s with lifecycle := lc, isRooted := rooted, rootCancelled := p }.without c) := by
  have hquiet := hs.not_isStartup_without hc hq
  have hidle : s.loops = [] := by
    refine hs.loops_eq_nil (fun h => ?_) hl
    have hst := hs.starting ⟨c, q⟩ hc hq
    simp [h] at hst
  exact { hs.without c with
    starting := fun x hx h => by simp [hquiet x hx] at h
    unopened := fun h => by
      obtain rfl : lc = .pending := h
      simp at hlc
    empty := fun h => by
      obtain rfl : lc = .terminated := h
      simp at hlc
    idle := fun h => absurd hidle h
    rooted := fun h _ => by
      obtain rfl : lc = .started := h
      show rooted = true
      simpa using hlc
    halted := fun _ x hx => by
      have hx' : x ∈ s.loops := hx
      simp [hidle] at hx' }

theorem startLoop_eq {id : TaskId} {r : Registration κ ξ} (h : s.registry.lookup? id = some r) :
    s.startLoop id = { s with
      registry := s.registry.modify id fun r =>
        { r with loop := some s.nextLoop, state := .running }
      nextLoop := s.nextLoop + 1
      loops := s.loops ++ [{
        id := s.nextLoop, ticket := r.ticket, task := r.task, period := r.options.period,
        cancelled := s.rootCancelled }]
      notices := s.notices ++ [.spawnLoop s.nextLoop] } := by
  simp [startLoop, h]

theorem map_startLoop {α : Type} {g : Registration κ ξ → α}
    (hg : ∀ (r : Registration κ ξ) (l : Option LoopId) (st : TaskState),
      g { r with loop := l, state := st } = g r) (s : TaskSet κ ξ) (id : TaskId) :
    List.map g (s.startLoop id).registry = List.map g s.registry := by
  cases h : s.registry.lookup? id with
  | none => simp [startLoop, h]
  | some r =>
    rw [startLoop_eq h]
    exact Registry.map_modify fun _ => hg _ _ _

theorem tickets_startLoop (s : TaskSet κ ξ) (id : TaskId) :
    (s.startLoop id).tickets = s.tickets := map_startLoop (fun _ _ _ => rfl) s id

/-- What the start of a loop leaves alone. -/
theorem startLoop_same (s : TaskSet κ ξ) (id : TaskId) :
    (s.startLoop id).lifecycle = s.lifecycle ∧ (s.startLoop id).calls = s.calls ∧
      (s.startLoop id).stays = s.stays ∧ (s.startLoop id).tornDown = s.tornDown := by
  have hstays : (s.startLoop id).stays = s.stays := map_startLoop (fun _ _ _ => rfl) s id
  cases h : s.registry.lookup? id with
  | none => simp [TaskSet.startLoop, h]
  | some r =>
    rw [startLoop_eq h] at hstays ⊢
    exact ⟨rfl, rfl, hstays, by simp [tornDown, SetNotice.tornDown?]⟩

theorem startLoops_same (ids : List TaskId) : ∀ s : TaskSet κ ξ,
    (ids.foldl TaskSet.startLoop s).lifecycle = s.lifecycle ∧
      (ids.foldl TaskSet.startLoop s).calls = s.calls ∧
      (ids.foldl TaskSet.startLoop s).stays = s.stays ∧
      (ids.foldl TaskSet.startLoop s).tornDown = s.tornDown := by
  induction ids with
  | nil => exact fun s => ⟨rfl, rfl, rfl, rfl⟩
  | cons id ids ih =>
    intro s
    obtain ⟨hl, hc, hs, ht⟩ := startLoop_same s id
    obtain ⟨hl', hc', hs', ht'⟩ := ih (s.startLoop id)
    exact ⟨hl'.trans hl, hc'.trans hc, hs'.trans hs, ht'.trans ht⟩

/-- A loop starts for a registration that has had none. -/
theorem Sound.startLoop (hs : Sound us s) (hl : s.lifecycle = .started) {r : Registration κ ξ}
    (hr : r ∈ s.registry) (hfirst : ∀ x ∈ s.loops, x.ticket ≠ r.ticket) :
    Sound us (s.startLoop r.task.id) := by
  have htickets := tickets_startLoop s r.task.id
  have htasks : List.map (·.task.id) (s.startLoop r.task.id).registry =
      List.map (·.task.id) s.registry := map_startLoop (fun _ _ _ => rfl) s r.task.id
  rw [startLoop_eq (Registry.lookup?_eq_some hs.tasks hr)] at htickets htasks ⊢
  have hmem : ∀ {x y : Loop}, x ∈ s.loops ++ [y] → x ∈ s.loops ∨ x = y := fun hx => by
    simpa using hx
  exact { hs with
    tasks := by
      rw [htasks]
      exact hs.tasks
    tickets := by
      rw [htickets]
      exact hs.tickets
    registered := by
      rw [htickets]
      exact hs.registered
    new := fun x hx r' hr' => by
      rw [htickets]
      refine ⟨(hs.new x hx r' hr').1, fun y hy => ?_⟩
      rcases hmem hy with hy | rfl
      · exact (hs.new x hx r' hr').2 y hy
      · intro hid
        exact (hs.new x hx r' hr').1 (mem_tickets.2 ⟨r, hr, hid⟩)
    empty := fun h => by
      have h' : s.lifecycle = .terminated := h
      simp [hl] at h'
    loopIds := by
      rw [List.map_append, List.map_singleton, List.nodup_append]
      refine ⟨hs.loopIds, List.nodup_singleton _, fun i hi j hj => ?_⟩
      obtain ⟨x, hx, rfl⟩ := List.mem_map.1 hi
      obtain rfl := List.mem_singleton.1 hj
      exact Nat.ne_of_lt (hs.loopsOld x hx)
    loopsOld := fun x hx => by
      rcases hmem hx with hx | rfl
      · exact Nat.lt_succ_of_lt (hs.loopsOld x hx)
      · exact Nat.lt_succ_self _
    polled := fun x hx => by
      rcases hmem hx with hx | rfl
      · exact hs.polled x hx
      · exact hs.registered _ (mem_tickets.2 ⟨r, hr, rfl⟩)
    owner := fun a ha x hx hk => by
      obtain ⟨b, hb, ⟨hid, rfl⟩ | ⟨hid, rfl⟩⟩ := Registry.mem_modify ha
      · -- the loop that has just started, as the registration has had no other
        obtain rfl := Registry.eq_of_id hs.tasks hb hr hid
        rcases hmem hx with hx | rfl
        · exact absurd hk (hfirst x hx)
        · rfl
      · rcases hmem hx with hx | rfl
        · exact hs.owner a hb x hx hk
        · obtain rfl := List.inj_on_of_nodup_map hs.tickets hr hb hk
          exact absurd rfl hid
    idle := fun _ => Or.inl hl
    halted := fun h x hx => by
      rcases hmem hx with hx | rfl
      · exact hs.halted h x hx
      · have h' : s.rootCancelled = true := h
        simp [Loop.isLive, h'] }

/-- Each of some registrations that have had no loop gets one. -/
theorem Sound.startLoops : ∀ {ids : List TaskId} {s : TaskSet κ ξ}, Sound us s →
    s.lifecycle = .started → ids.Nodup →
    (∀ id ∈ ids, ∃ r ∈ s.registry, r.task.id = id ∧ ∀ x ∈ s.loops, x.ticket ≠ r.ticket) →
    Sound us (ids.foldl TaskSet.startLoop s) := by
  intro ids
  induction ids with
  | nil => exact fun hs _ _ _ => hs
  | cons id ids ih =>
    intro s hs hl hn hfirst
    obtain ⟨hid, hrest⟩ := List.nodup_cons.1 hn
    obtain ⟨r, hr, rfl, hnone⟩ := hfirst id List.mem_cons_self
    refine ih (hs.startLoop hl hr hnone) ?_ hrest fun id' hid' => ?_
    · rw [startLoop_eq (Registry.lookup?_eq_some hs.tasks hr)]
      exact hl
    · obtain ⟨r', hr', rfl, hnone'⟩ := hfirst id' (List.mem_cons_of_mem _ hid')
      have hne : r'.task.id ≠ r.task.id := fun h => hid (h ▸ hid')
      rw [startLoop_eq (Registry.lookup?_eq_some hs.tasks hr)]
      refine ⟨r', List.mem_map.2 ⟨r', hr', by simp [hne]⟩, rfl, fun x hx => ?_⟩
      rcases List.mem_append.1 hx with hx | hx
      · exact hnone' x hx
      · obtain rfl := List.mem_singleton.1 hx
        exact fun hk => hne (congrArg (·.task.id)
          (List.inj_on_of_nodup_map hs.tickets hr' hr hk.symm))

theorem Sound.starts (hs : Sound us s) {c : CallId} (hc : ⟨c, .concluding⟩ ∈ s.calls)
    (hl : s.lifecycle ≠ .terminated) (p : Bool) :
    Sound us ((s.registry.tasks.map (·.id)).foldl TaskSet.startLoop
      ({ s with lifecycle := .started, isRooted := true, rootCancelled := p }.without c)) := by
  have hidle : s.loops = [] := by
    refine hs.loops_eq_nil (fun h => ?_) hl
    have hst := hs.starting ⟨c, .concluding⟩ hc rfl
    simp [h] at hst
  have hids : s.registry.tasks.map (·.id) = List.map (·.task.id) s.registry := by
    simp [Registry.tasks]
  rw [hids]
  refine (hs.settle hc rfl hl (Or.inr ⟨rfl, rfl⟩)).startLoops rfl hs.tasks fun id hid => ?_
  obtain ⟨r, hr, rfl⟩ := List.mem_map.1 hid
  refine ⟨r, hr, rfl, fun x hx => ?_⟩
  have hx' : x ∈ s.loops := hx
  simp [hidle] at hx'

theorem startLoop_without (s : TaskSet κ ξ) (id : TaskId) (c : CallId) :
    (s.startLoop id).without c = (s.without c).startLoop id := by
  cases h : s.registry.lookup? id with
  | none =>
    have h' : (s.without c).registry.lookup? id = none := h
    simp [TaskSet.startLoop, h, h']
  | some r =>
    have h' : (s.without c).registry.lookup? id = some r := h
    rw [startLoop_eq h, startLoop_eq h']
    rfl

/-- A registration comes in, and the call that brought it is over. -/
def admitted (s : TaskSet κ ξ) (r : Registration κ ξ) (c : CallId) : TaskSet κ ξ :=
  { s with registry := s.registry.insert r }.without c

/-- Once the set has started, the registration gets its loop at once. -/
theorem enroll_without (s : TaskSet κ ξ) (r : Registration κ ξ) (c : CallId) :
    ∃ t, GoesOn [] (s.admitted r c) t ∧
      (s.enroll r).without c = if s.lifecycle = .started then t.startLoop r.task.id else t := by
  have henroll : ∀ u : TaskSet κ ξ, u = { s with registry := s.registry.insert r }.record .debug
      "Registered task." [("task", .text r.task.name)] →
      s.enroll r = if s.lifecycle == .started then u.startLoop r.task.id else u := by
    rintro u rfl
    rfl
  refine ⟨_, goesOn_record (s.admitted r c) .debug "Registered task."
    [("task", .text r.task.name)], ?_⟩
  rw [henroll _ rfl]
  by_cases hl : s.lifecycle = .started
  · rw [if_pos hl, if_pos (by simp [hl]), startLoop_without]
    rfl
  · rw [if_neg hl, if_neg (by simp [hl])]
    rfl

/-- What the arrival of a registration leaves alone. -/
theorem enroll_same (s : TaskSet κ ξ) (r : Registration κ ξ) (c : CallId) :
    ((s.enroll r).without c).lifecycle = s.lifecycle ∧
      ((s.enroll r).without c).calls = (s.without c).calls ∧
      ((s.enroll r).without c).tornDown = s.tornDown ∧
      ∀ k, k ∈ ((s.enroll r).without c).tickets ↔ k = r.ticket ∨ k ∈ s.tickets := by
  obtain ⟨t, hgo, heq⟩ := enroll_without s r c
  have htickets : ∀ k, k ∈ t.tickets ↔ k = r.ticket ∨ k ∈ s.tickets := by
    intro k
    rw [tickets, hgo.registry]
    have hperm := (Registry.insert_perm r s.registry).map (·.ticket)
    exact hperm.mem_iff.trans List.mem_cons
  have htorn : t.tornDown = s.tornDown := hgo.tornDown.trans (List.append_nil _)
  rw [heq]
  split
  · obtain ⟨hl, hc, _, ht⟩ := startLoop_same t r.task.id
    rw [hl, hc, ht, tickets_startLoop]
    exact ⟨hgo.lifecycle, hgo.calls, htorn, htickets⟩
  · exact ⟨hgo.lifecycle, hgo.calls, htorn, htickets⟩

theorem Sound.admitted (hs : Sound us s) {c : CallId} {p : CallPhase κ ξ} {r : Registration κ ξ}
    (hc : ⟨c, p⟩ ∈ s.calls) (hp : p.registration? = some r) (hr : s.refusal? r = none) :
    Sound us (s.admitted r c) := by
  obtain ⟨hl, hhas⟩ : s.lifecycle ≠ .terminated ∧ s.registry.has r.task.id = false := by
    unfold refusal? at hr
    split at hr
    · contradiction
    · rename_i hl
      split at hr
      · contradiction
      · rename_i hhas
        exact ⟨by simpa using hl, by simpa using hhas⟩
  have hk : r.ticket = c := hs.own _ hc r hp
  obtain ⟨hnew, hloops⟩ := hs.new _ hc r hp
  have hperm := Registry.insert_perm r s.registry
  have htickets : ∀ k ∈ (s.admitted r c).tickets, k = c ∨ k ∈ s.tickets := by
    intro k h
    obtain ⟨a, ha, rfl⟩ := mem_tickets.1 h
    rcases Registry.mem_insert.1 ha with rfl | ha
    · exact Or.inl hk
    · exact Or.inr (mem_tickets.2 ⟨a, ha, rfl⟩)
  exact { hs.without c with
    tasks := by
      refine ((hperm.map (·.task.id)).nodup_iff).2 ?_
      rw [List.map_cons, List.nodup_cons]
      refine ⟨fun h => ?_, hs.tasks⟩
      obtain ⟨a, ha, hid⟩ := List.mem_map.1 h
      exact Registry.has_eq_false.1 hhas a ha hid
    tickets := by
      refine ((hperm.map (·.ticket)).nodup_iff).2 ?_
      rw [List.map_cons, List.nodup_cons, hk]
      exact ⟨hnew, hs.tickets⟩
    registered := fun k h => by
      rcases htickets k h with rfl | h
      · exact hs.calls _ hc
      · exact hs.registered k h
    new := fun x hx r' hr' => by
      obtain ⟨hx, hne⟩ := List.mem_filter.1 hx
      refine ⟨fun h => ?_, (hs.new x hx r' hr').2⟩
      rcases htickets _ h with h | h
      · simp [h] at hne
      · exact (hs.new x hx r' hr').1 h
    empty := fun h => absurd h hl
    owner := fun a ha x hx hxa => by
      rcases Registry.mem_insert.1 ha with rfl | ha
      · exact absurd (hxa.trans hk) (hloops x hx)
      · exact hs.owner a ha x hx hxa }

theorem Sound.enrolls (hs : Sound us s) {c : CallId} {p : CallPhase κ ξ} {r : Registration κ ξ}
    (hc : ⟨c, p⟩ ∈ s.calls) (hp : p.registration? = some r) (hr : s.refusal? r = none) :
    Sound us ((s.enroll r).without c) := by
  obtain ⟨t, hgo, heq⟩ := enroll_without s r c
  have ht := (hs.admitted hc hp hr).goesOn hgo
  rw [heq]
  split
  · rename_i hl
    have hmem : r ∈ t.registry := by
      rw [hgo.registry]
      exact Registry.mem_insert.2 (Or.inl rfl)
    refine ht.startLoop (hgo.lifecycle.trans hl) hmem fun x hx => ?_
    obtain ⟨y, hy, hxy⟩ := hgo.loops x hx
    rw [hxy.ticket, hs.own _ hc r hp]
    exact (hs.new _ hc r hp).2 y hy
  · exact ht

/-- Every move keeps a set sound. -/
theorem Move.sound (h : Move s d t) (hs : Sound us s) : Sound us t := by
  cases h with
  | goesOn h => exact hs.goesOn h
  | shifts hc hp =>
    refine hs.setPhase hc hp.within fun hl => Bool.eq_false_iff.2 fun hq => ?_
    have hlate := hs.unopened hl _ hc
    simp [hp.late hq] at hlate
  | opens hc hl => exact hs.opens hc hl
  | marks id => exact hs.marks id
  | finishes c => exact hs.without c
  | starts p hc hl => exact hs.starts hc hl p
  | givesUp hc hl => exact hs.settle hc rfl hl (Or.inl rfl)
  | comesLate hc hu =>
    refine hs.setPhase hc ⟨fun r' hr => ⟨r', hr, rfl⟩, .refl _, fun h => (nomatch h)⟩ fun hl => ?_
    simp [isUnderway, hl] at hu
  | prepares hc hl =>
    exact hs.setPhase hc ⟨fun r' hr => (nomatch hr), List.sublist_cons_self _ _, fun _ => rfl⟩
      fun _ => rfl
  | enrolls hc hp hr =>
    rcases hp with rfl | rfl
    · exact hs.enrolls hc rfl hr
    · exact hs.enrolls hc rfl hr
  | refuses hc h => exact (hs.without _).goesOn h
  | removes way id hr hw h _ => exact (hs.withRegistry List.filter_sublist).goesOn h
  | displaces id hr hl h => exact (hs.withRegistry List.filter_sublist).goesOn h
  | demolishes h _ => exact hs.demolish.goesOn h
  | drops hc h _ => exact hs.drop.goesOn h

theorem Course.sound (h : Course s d t) : Sound us s → Sound us t := h.keeps Move.sound

/-- What every move of a sound set keeps, a course of a sound set keeps. -/
theorem Course.keepsSound {P : TaskSet κ ξ → Prop} (h : Course s d t)
    (hP : ∀ {s t : TaskSet κ ξ} {d : Option Deed}, Move s d t → Sound us s → P s → P t)
    (hs : Sound us s) (hp : P s) : P t :=
  (h.keeps (P := fun s => Sound us s ∧ P s)
    (fun hm hsp => ⟨hm.sound hsp.1, hP hm hsp.1 hsp.2⟩) ⟨hs, hp⟩).2

end TaskSet

end Overseer
