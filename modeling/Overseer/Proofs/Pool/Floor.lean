import Mathlib.Data.List.Nodup
import Mathlib.Data.List.Perm.Subperm
import Overseer.Proofs.Pool.Wakeup

/-!
# Slots, workers and callers

The `floor` of a pool is where its units are: the workers with their inboxes, the callers that
are parked, the idle workers, and the slots. `Floor.Step` lists what an event can do to it, and
`Traffic` what the event does with units, as far as those who take part in it can tell: which
unit was offered, accepted, refused or withdrawn, and which worker has started one.

Every event takes one of these steps (`step_of_perform`), as long as the floor is `Tidy` : a
worker that is listed as idle waits at an empty inbox, and nobody else can be sent anything. So a
message always comes alone, and the list of idle workers, which may hold workers whose tasks are
gone, never holds one twice. A step leaves a tidy floor (`Tidy.step`).
-/

namespace Overseer

variable {υ : Type}

/-! ## Idle lists as lists of workers -/

namespace IdleList

variable {α : Type} {l l' : IdleList α} {live : α → Bool} {dead : List α} {a : α}

/-- The items without their stamps, oldest first. -/
def listed (l : IdleList α) : List α := l.items.map Prod.fst

theorem listed_of_insert? {now : Nat} (h : l.insert? a now = some l') :
    l'.listed = l.listed ++ [a] := by
  simp [listed, items_of_insert? h]

theorem listed_withOrder (l : IdleList α) (rest : List (α × Nat)) :
    (l.withOrder rest).listed.Perm (rest.map Prod.fst) := by
  unfold withOrder listed
  cases l.discipline with
  | stack =>
    simp only [List.map_reverse]
    exact List.reverse_perm _
  | ring _ => exact .refl _

theorem map_inOrder_perm (l : IdleList α) : (l.inOrder.map Prod.fst).Perm l.listed := by
  unfold inOrder listed
  cases l.discipline with
  | stack =>
    simp only [List.map_reverse]
    exact List.reverse_perm _
  | ring _ => exact .refl _

/-- Who is handed out is live, and was listed beside all who still are. -/
theorem listed_of_detachLive (h : l.detachLive live = (dead, some a, l')) :
    live a = true ∧ (a :: l'.listed).Subperm l.listed := by
  unfold detachLive at h
  split at h
  · simp at h
  · rename_i b since rest heq
    obtain ⟨-, h⟩ := Prod.mk.inj h
    obtain ⟨hb, rfl⟩ := Prod.mk.inj h
    obtain rfl := Option.some.inj hb
    have hlive : live b = true := by
      have hhead := List.head?_dropWhile_not (fun x : α × Nat => !live x.1) l.inOrder
      rw [heq] at hhead
      simpa using hhead
    have hsub : ((b, since) :: rest).Sublist l.inOrder := heq ▸ List.dropWhile_sublist _
    have hids := (hsub.map Prod.fst).subperm.trans l.map_inOrder_perm.subperm
    exact ⟨hlive, ((l.listed_withOrder rest).cons b).subperm_right.2 hids⟩

theorem listed_of_detachLive_none (h : l.detachLive live = (dead, none, l')) : l'.listed = [] := by
  have hsize := size_of_detachLive_none h
  unfold listed
  rw [List.length_eq_zero_iff.1 hsize, List.map_nil]

end IdleList

/-! ## The units that workers have -/

/-- The unit of a message. -/
def Message.unit? : Message υ → Option υ
  | .unit u => some u
  | .stop => none

/-- The units in an inbox. -/
def units (inbox : List (Message υ)) : List υ := inbox.filterMap Message.unit?

/-- The units that were handed to a worker and that it has not started. -/
def Worker.unstarted (x : Worker υ) : List υ :=
  match x.phase with
  | .spawned u => u :: units x.inbox
  | _ => units x.inbox

/-- The units that a worker has, the one that it runs among them. -/
def Worker.held (x : Worker υ) : List υ :=
  match x.phase with
  | .busy u => u :: x.unstarted
  | _ => x.unstarted

/-! ## The floor of a pool -/

/-- Where the units of a pool are. -/
structure Floor (υ : Type) where
  workers : List (Worker υ)
  callers : List (Caller υ)
  idle : List WorkerId
  nextWorker : WorkerId
  running : Nat
  capacity : Option Nat
  dropped : Bool

/-- A pool without what is reported, scheduled and timed. -/
def Pool.floor (p : Pool υ) : Floor υ where
  workers := p.workers
  callers := p.callers
  idle := p.idle.listed
  nextWorker := p.nextWorker
  running := p.running
  capacity := p.capacity
  dropped := p.dropped

namespace Floor

/-- Workers are sent a message. -/
def tell (f : Floor υ) (ws : List WorkerId) (m : Message υ) : Floor υ :=
  { f with workers := f.workers.map fun x =>
      if x.id ∈ ws then { x with inbox := x.inbox ++ [m] } else x }

def setPhase (f : Floor υ) (w : WorkerId) (phase : WorkerPhase υ) (inbox : List (Message υ)) :
    Floor υ :=
  { f with workers := f.workers.map fun x =>
      if x.id == w then { x with phase := phase, inbox := inbox } else x }

/-- A new worker takes a slot. -/
def hire (f : Floor υ) (u : υ) : Floor υ :=
  { f with
    running := f.running + 1
    nextWorker := f.nextWorker + 1
    workers := f.workers ++ [{ id := f.nextWorker, phase := .spawned u }] }

/-- The task of a worker is gone, and `n` slots are taken now. -/
def without (f : Floor υ) (w : WorkerId) (n : Nat) : Floor υ :=
  { f with workers := f.workers.filter (·.id != w), running := n }

/-- A caller does not wait any longer. -/
def forget (f : Floor υ) (c : CallerId) : Floor υ :=
  { f with callers := f.callers.filter (·.id != c) }

/-- The slots that are taken after one was given back: no slot is, once the pool is gone. -/
def freed (f : Floor υ) : Nat := if f.dropped then f.running else f.running - 1

/-- What became of the unit `u` of the caller `c`. Idle workers whose tasks are gone may have been
taken off the list on the way. -/
inductive Attempt (f : Floor υ) (c : CallerId) (u : υ) : Submission → Floor υ → Prop
  | refuses (e : PoolError) {rest : List WorkerId} : rest.Subperm f.idle →
      Attempt f c u (.refused e) { f with idle := rest }
  | waits {rest : List WorkerId} : rest.Subperm f.idle →
      Attempt f c u .parked { f with idle := rest, callers := f.callers ++ [⟨c, u⟩] }
  | hands {w : WorkerId} {rest : List WorkerId} : (w :: rest).Subperm f.idle →
      w ∈ f.workers.map (·.id) →
      Attempt f c u .accepted ({ f with idle := rest }.tell [w] (.unit u))
  | hires {rest : List WorkerId} : rest.Subperm f.idle →
      (∀ n, f.capacity = some n → f.running < n) →
      Attempt f c u .accepted ({ f with idle := rest }.hire u)

end Floor

/-- What an event does with units, as those who take part in it can tell. -/
structure Traffic (υ : Type) where
  offered : List υ := []
  accepted : List υ := []
  refused : List υ := []
  /-- Units of calls that were dropped. -/
  withdrawn : List υ := []
  started : List (WorkerId × υ) := []
  /-- Units that were handed to a worker whose task was dropped before it started them. -/
  lost : List υ := []

/-- What becomes of a unit with the answer to its caller. -/
def Traffic.answered (u : υ) : Submission → Traffic υ
  | .accepted => { accepted := [u] }
  | .refused _ => { refused := [u] }
  | .parked => {}

@[simp] theorem Traffic.started_answered (u : υ) (r : Submission) :
    (Traffic.answered u r).started = [] := by
  cases r <;> rfl

@[simp] theorem Traffic.lost_answered (u : υ) (r : Submission) :
    (Traffic.answered u r).lost = [] := by
  cases r <;> rfl

@[simp] theorem Traffic.withdrawn_answered (u : υ) (r : Submission) :
    (Traffic.answered u r).withdrawn = [] := by
  cases r <;> rfl

@[simp] theorem Traffic.offered_answered (u : υ) (r : Submission) :
    (Traffic.answered u r).offered = [] := by
  cases r <;> rfl

namespace Pool

def caller? (p : Pool υ) (c : CallerId) : Option (Caller υ) := p.callers.find? (·.id == c)

/-- What an event does with units. -/
def traffic (p : Pool υ) : PoolEvent υ → Traffic υ
  | .submit c u => { Traffic.answered u (p.submit c u).2 with offered := [u] }
  | .resume c =>
    match p.caller? c with
    | some x => Traffic.answered x.unit (p.resume c).2
    | none => {}
  | .abandon c => { withdrawn := (p.caller? c).toList.map Caller.unit }
  | .pollWorker w =>
    match (p.pollWorker w).2 with
    | .start u => { started := [(w, u)] }
    | _ => {}
  | .killWorker w => { lost := (p.worker? w).toList.flatMap Worker.unstarted }
  | _ => {}

end Pool

namespace Floor

/-- What an event can do on the floor of a pool. -/
inductive Step (f : Floor υ) : Traffic υ → Floor υ → Prop
  | rests : Step f {} f
  | submits {c : CallerId} {u : υ} {r : Submission} {f' : Floor υ} : Attempt f c u r f' →
      Step f { Traffic.answered u r with offered := [u] } f'
  /-- A caller that was parked tries again. -/
  | resumes {x : Caller υ} {r : Submission} {f' : Floor υ} : x ∈ f.callers →
      Attempt (f.forget x.id) x.id x.unit r f' → Step f (Traffic.answered x.unit r) f'
  | withdraws {x : Caller υ} : x ∈ f.callers → Step f { withdrawn := [x.unit] } (f.forget x.id)
  | starts {x : Worker υ} {u : υ} {inbox : List (Message υ)} : x ∈ f.workers →
      x.phase = .spawned u ∧ inbox = x.inbox ∨ x.phase = .parked ∧ x.inbox = .unit u :: inbox →
      Step f { started := [(x.id, u)] } (f.setPhase x.id (.busy u) inbox)
  /-- A worker that has ended its unit joins the idle list. -/
  | joins {x : Worker υ} {u : υ} : x ∈ f.workers → x.phase = .busy u →
      Step f {} ({ f with idle := f.idle ++ [x.id] }.setPhase x.id .parked [])
  /-- The task of a worker comes to its end or is dropped. A worker that was never polled does not
  give back its slot. -/
  | leaves {x : Worker υ} {n : Nat} : x ∈ f.workers →
      (n = f.running ∧ ∃ u, x.phase = .spawned u) ∨ n = f.freed →
      Step f { lost := x.unstarted } (f.without x.id n)
  /-- Idle workers are told to exit. -/
  | dismisses {ws rest : List WorkerId} {dropped : Bool} : (f.dropped = true → dropped = true) →
      (ws ++ rest).Subperm f.idle →
      Step f {} ({ f with idle := rest, dropped := dropped }.tell ws .stop)
  | resizes {n : Nat} : f.capacity.isSome = true → Step f {} { f with capacity := some n }

end Floor

/-! ## What the operations do to the floor -/

namespace Pool

variable {p : Pool υ}

@[simp] theorem floor_debug (p : Pool υ) (m : String) (fs : List (String × Field)) :
    (p.debug m fs).floor = p.floor := rfl

@[simp] theorem floor_notifyOne (p : Pool υ) : p.notifyOne.floor = p.floor := by
  unfold notifyOne
  dsimp only
  split <;> rfl

@[simp] theorem floor_notifyAll (p : Pool υ) : p.notifyAll.floor = p.floor := rfl

@[simp] theorem floor_reject (p : Pool υ) : p.reject.floor = p.floor := rfl

@[simp] theorem floor_discard (p : Pool υ) (ws : List WorkerId) :
    (p.discard ws).floor = p.floor := by
  unfold discard
  induction ws generalizing p with
  | nil => rfl
  | cons w ws ih => rw [List.foldl_cons, ih, floor_debug]

@[simp] theorem floor_reportPanic (p : Pool υ) (w : WorkerId) (payload : Payload) :
    (p.reportPanic w payload).floor = p.floor := by
  unfold reportPanic
  dsimp only
  split <;> rfl

@[simp] theorem floor_takeScavenger (p : Pool υ) : p.takeScavenger.1.floor = p.floor := by
  unfold takeScavenger
  split <;> rfl

@[simp] theorem floor_startScavenger (p : Pool υ) (now : Nat) :
    (p.startScavenger now).floor = p.floor := by
  unfold startScavenger
  split
  · rfl
  · exact floor_takeScavenger p

@[simp] theorem floor_setPhase (p : Pool υ) (w : WorkerId) (phase : WorkerPhase υ)
    (inbox : List (Message υ)) :
    (p.setPhase w phase inbox).floor = p.floor.setPhase w phase inbox := rfl

@[simp] theorem floor_spawn (p : Pool υ) (u : υ) : (p.spawn u).floor = p.floor.hire u := rfl

/-- A message to a worker whose task is gone reaches nobody. -/
@[simp] theorem floor_send (p : Pool υ) (w : WorkerId) (m : Message υ) :
    (p.send w m).floor = p.floor.tell [w] m := by
  unfold send
  split
  · simp [floor, Floor.tell]
  · rename_i hgone
    have hnobody : (p.workers.map fun x =>
        if x.id ∈ [w] then { x with inbox := x.inbox ++ [m] } else x) = p.workers := by
      refine (List.map_congr_left fun x hx => ?_).trans p.workers.map_id'
      have hne : x.id ≠ w := by
        intro he
        refine hgone ?_
        simp only [isAlive, List.any_eq_true]
        exact ⟨x, hx, by simpa using he⟩
      simp [hne]
    simp only [floor, Floor.tell, hnobody]

@[simp] theorem floor_removeWorker (p : Pool υ) (w : WorkerId) :
    (p.removeWorker w).floor = p.floor.without w p.floor.running := rfl

theorem floor_freeSlot (p : Pool υ) :
    p.freeSlot.floor = { p.floor with running := p.floor.freed } := by
  unfold freeSlot
  cases hd : p.dropped with
  | true => simp [floor, Floor.freed, hd]
  | false =>
    simp only [Bool.false_eq_true, if_false, floor_notifyOne]
    simp [floor, Floor.freed, hd]

theorem floor_exit (p : Pool υ) (w : WorkerId) :
    (p.exit w).floor = p.floor.without w p.floor.freed := by
  unfold exit
  rw [floor_freeSlot, floor_removeWorker, floor_debug]
  rfl

end Pool

namespace Floor

/-- To tell one worker after the other is to tell them together. -/
theorem tell_tell {f : Floor υ} {w : WorkerId} {ws : List WorkerId} (h : w ∉ ws)
    (m : Message υ) : (f.tell [w] m).tell ws m = f.tell (w :: ws) m := by
  simp only [tell, List.map_map]
  congr 1
  refine List.map_congr_left fun x _ => ?_
  by_cases hx : x.id = w
  · simp [hx, h]
  · simp [hx]

theorem tell_nil (f : Floor υ) (m : Message υ) : f.tell [] m = f := by
  simp [tell]

end Floor

namespace Pool

variable {p : Pool υ}

/-- To send the same to one worker after the other is to tell them all. -/
theorem floor_foldl {g : Pool υ → WorkerId → Pool υ} {m : Message υ}
    (hg : ∀ p w, (g p w).floor = p.floor.tell [w] m) {ws : List WorkerId} (h : ws.Nodup)
    (p : Pool υ) : (ws.foldl g p).floor = p.floor.tell ws m := by
  induction ws generalizing p with
  | nil => exact (Floor.tell_nil _ _).symm
  | cons w ws ih =>
    obtain ⟨hw, hws⟩ := List.nodup_cons.1 h
    rw [List.foldl_cons, ih hws, hg, Floor.tell_tell hw]

theorem floor_stopAll {ws : List WorkerId} (h : ws.Nodup) (p : Pool υ) :
    (p.stopAll ws).floor = p.floor.tell ws .stop :=
  floor_foldl (fun p w => floor_send p w .stop) h p

end Pool

/-! ## Tidy floors -/

/-- Idle workers wait at an empty inbox, and a message comes alone. -/
structure Floor.Tidy (f : Floor υ) : Prop where
  nodup : (f.workers.map (·.id)).Nodup
  old : ∀ x ∈ f.workers, x.id < f.nextWorker
  idle_nodup : f.idle.Nodup
  idle_old : ∀ w ∈ f.idle, w < f.nextWorker
  waits : ∀ x ∈ f.workers, x.id ∈ f.idle → x.phase = .parked ∧ x.inbox = []
  alone : ∀ x ∈ f.workers, x.inbox = [] ∨ x.phase = .parked ∧ ∃ m, x.inbox = [m]
  slots : f.workers.length ≤ f.running

namespace Floor

variable {f f' : Floor υ} {w : WorkerId} {x : Worker υ}

theorem Tidy.shrink {rest : List WorkerId} (hf : f.Tidy) (h : rest.Subperm f.idle) :
    Tidy { f with idle := rest } :=
  { hf with
    idle_nodup := by
      obtain ⟨l, hl, hsub⟩ := h
      exact hl.nodup_iff.1 (hf.idle_nodup.sublist hsub)
    idle_old := fun w hw => hf.idle_old w (h.subset hw)
    waits := fun x hx hi => hf.waits x hx (h.subset hi) }

/-- Who is told something is not listed any longer. -/
theorem Tidy.tell {ws rest : List WorkerId} (hf : f.Tidy) (h : (ws ++ rest).Subperm f.idle)
    (m : Message υ) : ({ f with idle := rest }.tell ws m).Tidy := by
  have hsplit : (ws ++ rest).Nodup := (hf.shrink h).idle_nodup
  have hrest : rest.Subperm f.idle := (List.sublist_append_right ws rest).subperm.trans h
  have hshrunk := hf.shrink hrest
  have hids : (({ f with idle := rest } : Floor υ).tell ws m).workers.map (·.id) =
      f.workers.map (·.id) := by
    simp only [Floor.tell, List.map_map]
    refine List.map_congr_left fun x _ => ?_
    dsimp only [Function.comp]
    split <;> rfl
  refine ⟨hids ▸ hf.nodup, ?_, hshrunk.idle_nodup, hshrunk.idle_old, ?_, ?_, ?_⟩
  · rintro y hy
    obtain ⟨x, hx, rfl⟩ := List.mem_map.1 hy
    have := hf.old x hx
    split <;> exact this
  · rintro y hy hi
    obtain ⟨x, hx, rfl⟩ := List.mem_map.1 hy
    split at hi
    · rename_i hw
      exact absurd rfl ((List.nodup_append.1 hsplit).2.2 x.id hw x.id hi)
    · rename_i hw
      rw [if_neg hw]
      exact hshrunk.waits x hx hi
  · rintro y hy
    obtain ⟨x, hx, rfl⟩ := List.mem_map.1 hy
    split
    · rename_i hw
      obtain ⟨hphase, hinbox⟩ := hf.waits x hx (h.subset (List.mem_append_left _ hw))
      exact .inr ⟨hphase, m, by simp [hinbox]⟩
    · exact hf.alone x hx
  · simpa [Floor.tell] using hf.slots

theorem Tidy.hire (hf : f.Tidy) (u : υ) : (f.hire u).Tidy := by
  refine ⟨?_, ?_, hf.idle_nodup, ?_, ?_, ?_, ?_⟩
  · simp only [Floor.hire, List.map_append, List.map_cons, List.map_nil]
    refine List.nodup_append.2 ⟨hf.nodup, List.nodup_singleton _, ?_⟩
    intro i hi j hj
    obtain ⟨x, hx, rfl⟩ := List.mem_map.1 hi
    rw [List.mem_singleton.1 hj]
    exact Nat.ne_of_lt (hf.old x hx)
  · intro x hx
    simp only [Floor.hire, List.mem_append, List.mem_singleton] at hx ⊢
    rcases hx with hx | rfl
    · exact Nat.lt_succ_of_lt (hf.old x hx)
    · exact Nat.lt_succ_self _
  · exact fun w hw => Nat.lt_succ_of_lt (hf.idle_old w hw)
  · intro x hx hi
    simp only [Floor.hire, List.mem_append, List.mem_singleton] at hx hi
    rcases hx with hx | rfl
    · exact hf.waits x hx hi
    · exact absurd (hf.idle_old _ hi) (Nat.lt_irrefl _)
  · intro x hx
    simp only [Floor.hire, List.mem_append, List.mem_singleton] at hx
    rcases hx with hx | rfl
    · exact hf.alone x hx
    · exact .inl rfl
  · have := hf.slots
    simp only [Floor.hire, List.length_append, List.length_singleton]
    omega

/-- A worker that is not listed as idle changes its phase at an empty inbox. -/
theorem Tidy.setPhase (hf : f.Tidy) (hw : w ∉ f.idle) (phase : WorkerPhase υ) :
    (f.setPhase w phase []).Tidy := by
  have hids : (f.setPhase w phase []).workers.map (·.id) = f.workers.map (·.id) := by
    simp only [Floor.setPhase, List.map_map]
    refine List.map_congr_left fun x _ => ?_
    dsimp only [Function.comp]
    split <;> rfl
  refine ⟨hids ▸ hf.nodup, ?_, hf.idle_nodup, hf.idle_old, ?_, ?_, ?_⟩
  · rintro y hy
    obtain ⟨x, hx, rfl⟩ := List.mem_map.1 hy
    have := hf.old x hx
    split <;> exact this
  · rintro y hy hi
    obtain ⟨x, hx, rfl⟩ := List.mem_map.1 hy
    split at hi
    · rename_i he
      have hid : x.id = w := by simpa using he
      exact absurd hi (hid ▸ hw)
    · rename_i he
      rw [if_neg he]
      exact hf.waits x hx hi
  · rintro y hy
    obtain ⟨x, hx, rfl⟩ := List.mem_map.1 hy
    split
    · exact .inl rfl
    · exact hf.alone x hx
  · simpa [Floor.setPhase] using hf.slots

theorem Tidy.join (hf : f.Tidy) (hx : x ∈ f.workers) (hi : x.id ∉ f.idle) :
    ({ f with idle := f.idle ++ [x.id] }.setPhase x.id .parked []).Tidy := by
  have hset := hf.setPhase hi .parked
  refine { hset with idle_nodup := ?_, idle_old := ?_, waits := ?_ }
  · refine List.nodup_append.2 ⟨hf.idle_nodup, List.nodup_singleton _, ?_⟩
    rintro w hw v hv rfl
    exact hi (List.mem_singleton.1 hv ▸ hw)
  · intro w hw
    rcases List.mem_append.1 hw with hw | hw
    · exact hf.idle_old w hw
    · exact List.mem_singleton.1 hw ▸ hf.old x hx
  · intro y hy hidle
    rcases List.mem_append.1 hidle with hidle | hidle
    · exact hset.waits y hy hidle
    · obtain ⟨z, hz, rfl⟩ := List.mem_map.1 hy
      by_cases he : z.id = x.id
      · simp [he]
      · simp [he] at hidle

theorem Tidy.without {n : Nat} (hf : f.Tidy) (hx : x ∈ f.workers)
    (hn : n = f.running ∨ n = f.freed) : (f.without x.id n).Tidy := by
  have hless : (f.workers.filter (·.id != x.id)).length < f.workers.length :=
    List.length_filter_lt_length_iff_exists.2 ⟨x, hx, by simp⟩
  refine ⟨?_, ?_, hf.idle_nodup, hf.idle_old, ?_, ?_, ?_⟩
  · exact hf.nodup.sublist (List.filter_sublist.map _)
  · exact fun y hy => hf.old y (List.mem_filter.1 hy).1
  · exact fun y hy => hf.waits y (List.mem_filter.1 hy).1
  · exact fun y hy => hf.alone y (List.mem_filter.1 hy).1
  · have := hf.slots
    show (f.workers.filter (·.id != x.id)).length ≤ n
    unfold freed at hn
    split at hn <;> omega

/-- A worker that has something to do is not listed as idle. -/
theorem Tidy.not_idle (hf : f.Tidy) (hx : x ∈ f.workers) (h : x.phase ≠ .parked ∨ x.inbox ≠ []) :
    x.id ∉ f.idle := by
  intro hi
  obtain ⟨hphase, hinbox⟩ := hf.waits x hx hi
  exact h.elim (· hphase) (· hinbox)

/-- A worker that is not parked has no message. -/
theorem Tidy.inbox_eq_nil (hf : f.Tidy) (hx : x ∈ f.workers) (h : x.phase ≠ .parked) :
    x.inbox = [] :=
  (hf.alone x hx).resolve_right fun hp => h hp.1

theorem Tidy.attempt {c : CallerId} {u : υ} {r : Submission} (hf : f.Tidy)
    (h : f.Attempt c u r f') : f'.Tidy := by
  cases h with
  | refuses e hrest => exact hf.shrink hrest
  | waits hrest => exact { hf.shrink hrest with }
  | hands hrest hw => exact hf.tell hrest (.unit u)
  | hires hrest hroom => exact (hf.shrink hrest).hire u

/-- A worker that has nothing left to start takes nothing with it. -/
theorem step_leaves (f : Floor υ) (hx : x ∈ f.workers) (h : x.unstarted = []) :
    f.Step {} (f.without x.id f.freed) := by
  have hleft := Step.leaves (f := f) hx (.inr rfl)
  rwa [h] at hleft

/-- A step leaves a tidy floor. -/
theorem Tidy.step {t : Traffic υ} (hf : f.Tidy) (h : f.Step t f') : f'.Tidy := by
  cases h with
  | rests => exact hf
  | submits h => exact hf.attempt h
  | @resumes x _ _ _ h =>
    have hforgotten : (f.forget x.id).Tidy := { hf with }
    exact hforgotten.attempt h
  | withdraws _ => exact { hf with }
  | @starts x u inbox hx hunit =>
    rcases hunit with ⟨hphase, rfl⟩ | ⟨hphase, hinbox⟩
    · rw [hf.inbox_eq_nil hx (by simp [hphase])]
      exact hf.setPhase (hf.not_idle hx (.inl (by simp [hphase]))) _
    · have halone := hf.alone x hx
      obtain rfl : inbox = [] := by simpa [hphase, hinbox] using halone
      exact hf.setPhase (hf.not_idle hx (.inr (by simp [hinbox]))) _
  | joins hx hphase => exact hf.join hx (hf.not_idle hx (.inl (by simp [hphase])))
  | leaves hx hn => exact hf.without hx (hn.imp_left And.left)
  | dismisses _ hrest => exact { hf.tell hrest .stop with }
  | resizes _ => exact { hf with }

end Floor

end Overseer
