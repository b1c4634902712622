import Overseer.Proofs.Pool.Staff
import Overseer.Proofs.Pool.Capacity
import Overseer.Proofs.Pool.Eviction

/-!
# A ring and a stack

A pool that keeps its idle workers in a ring reuses the one that went idle first, and one with a
stack the one that went idle last; and a ring can be full. As long as the capacity stays as it is,
no task is dropped and nothing is purged, neither makes a difference to anybody outside. A worker
that runs a unit has a slot and is not listed, so that the ring, which has as many places as there
are slots, has one for it (`roomy_of_run`). So a ring and a stack made with the same options stay
twins, if the same happens to both.

`Paired` says what the same is: events differ at most in the worker that they are about, and the one
worker does what the other does. Every history of the ring is paired with one of the stack, and
every history of the stack with one of the ring (`ring_and_stack`).
-/

namespace Overseer

variable {υ : Type}

namespace PoolEvent

variable {e : PoolEvent υ}

theorem dropsTask_of_isPlain (h : e.isPlain = true) : e.dropsTask = false := by
  cases e with
  | killWorker _ | killScavenger _ => cases h
  | _ => rfl

theorem isPlain_of (v : WorkerId) (e : PoolEvent υ) : (e.of v).isPlain = e.isPlain := by
  cases e <;> rfl

theorem begins?_of (v : WorkerId) (e : PoolEvent υ) : (e.of v).begins? = e.begins? := by
  cases e <;> rfl

theorem of_worker {w u : WorkerId} (h : u ∈ (e.of w).worker?) : u = w := by
  cases e with
  | pollWorker _ | complete _ _ | crash _ _ | killWorker _ => exact (Option.some.inj h).symm
  | _ => cases h

/-- The event that is about the same worker again. -/
theorem of_of (w : WorkerId) (e : PoolEvent υ) : (e.of w).of (e.worker?.getD 0) = e := by
  cases e <;> rfl

end PoolEvent

/-- A pool made with these options, to which plain events happen. -/
def plainSystem (υ : Type) (capacity : Int) (options : PoolOptions) (start : Nat) :
    System (Pool υ) (PoolEvent υ) (List PoolNotice × PoolAnswer υ) where
  starts p := ∃ p₀, Pool.new capacity options start = .ok p₀ ∧ p = p₀.collect.2
  happen := (poolSystem υ).happen
  allows h p e := Pool.allows h p e && e.isPlain

namespace Pool

variable {capacity : Int} {options : PoolOptions} {start : Nat} {p q : Pool υ}
  {h h' : List (Occurrence (Pool υ) (PoolEvent υ))} {e : PoolEvent υ}

theorem pool_of_plain (hrun : (plainSystem υ capacity options start).Run h p) :
    (poolSystem υ).Run h p ∧ ∀ o ∈ h, o.event.isPlain = true := by
  induction hrun with
  | start hs =>
    obtain ⟨p₀, hnew, hp⟩ := hs
    exact ⟨.start ⟨capacity, options, start, p₀, hnew, hp⟩, by simp⟩
  | @next h p e _ hall ih =>
    obtain ⟨hall, hplain⟩ := Bool.and_eq_true_iff.1 hall
    refine ⟨ih.1.next hall, fun o ho => ?_⟩
    rcases List.mem_append.1 ho with ho | ho
    · exact ih.2 o ho
    · obtain rfl := List.mem_singleton.1 ho
      exact hplain

/-- A plain event leaves the options, the capacity and the kind of the list. -/
theorem kept_perform (p : Pool υ) (hplain : e.isPlain = true) :
    (p.perform e).1.options = p.options ∧ (p.perform e).1.capacity = p.capacity ∧
      (p.perform e).1.idle.discipline = p.idle.discipline := by
  have hrounds := rounds_perform p (PoolEvent.dropsTask_of_isPlain hplain)
  have hpoll : ∀ s now, e ≠ .pollScavenger s now := by
    rintro s now rfl
    cases hplain
  have htune : ∀ size, e ≠ .tune size := by
    rintro size rfl
    cases hplain
  exact ⟨(hrounds.evicted hpoll).1, hrounds.capacity htune⟩

@[simp] theorem disablePurge_normalized (o : PoolOptions) :
    o.normalized.disablePurge = o.disablePurge := by
  unfold PoolOptions.normalized
  split <;> rfl

@[simp] theorem prealloc_normalized (o : PoolOptions) : o.normalized.prealloc = o.prealloc := by
  unfold PoolOptions.normalized
  split <;> rfl

/-- What a new pool is made of. -/
theorem create_eq (c : Option Nat) (options : PoolOptions) (now : Nat) :
    (create c options now : Pool υ).options = options.normalized ∧
      (create c options now : Pool υ).capacity = c ∧ (create c options now : Pool υ).idle =
        { discipline := if options.prealloc then .ring (c.getD 0) else .stack } := by
  rw [← prealloc_normalized options]
  unfold create
  generalize hp : ({
    options := options.normalized
    capacity := c
    idle := { discipline :=
      if options.normalized.prealloc then .ring (c.getD 0) else .stack } } : Pool υ) = p
  obtain ⟨hoptions, hidle, -⟩ := idle_startScavenger p now
  have hcapacity := congrArg Floor.capacity (floor_startScavenger p now)
  subst hp
  exact ⟨hoptions, hcapacity, hidle⟩

/-- The capacity that a pool is made with, if it is bounded. -/
def bound? (capacity : Int) : Option Nat := if capacity ≤ 0 then none else some capacity.toNat

/-- A stack can always be made, and a ring if it is bounded. -/
theorem new_eq_ok_iff : Pool.new capacity options start = .ok p ↔
    p = create (bound? capacity) options start ∧
      (options.prealloc = true → (bound? capacity).isSome = true) := by
  have hnew : Pool.new capacity options start =
      if options.prealloc && (bound? capacity).isNone then .error .invalidPreallocSize
      else .ok (create (bound? capacity) options start : Pool υ) := rfl
  rw [hnew]
  cases options.prealloc <;> cases bound? capacity <;> simp [eq_comm]

/-- A ring has as many places as there are slots. -/
theorem ring_of_run (hrun : (plainSystem υ capacity options start).Run h p) :
    p.options.disablePurge = options.disablePurge ∧
      ∀ n, p.idle.discipline = .ring n → p.capacity = some n := by
  induction hrun with
  | start hs =>
    obtain ⟨p₀, hnew, rfl⟩ := hs
    obtain ⟨rfl, hbounded⟩ := new_eq_ok_iff.1 hnew
    generalize bound? capacity = c at hbounded
    obtain ⟨hoptions, hcapacity, hidle⟩ := @create_eq υ c options start
    refine ⟨?_, fun n hn => ?_⟩
    · show (create c options start : Pool υ).options.disablePurge = _
      rw [hoptions, disablePurge_normalized]
    · have hn : (create c options start : Pool υ).idle.discipline = .ring n := hn
      show (create c options start : Pool υ).capacity = some n
      rw [hidle] at hn
      rw [hcapacity]
      dsimp only at hn
      split at hn
      · rename_i hring
        obtain ⟨m, rfl⟩ := Option.isSome_iff_exists.1 (hbounded hring)
        exact congrArg some (Discipline.ring.inj hn)
      · cases hn
  | @next h p e _ hall ih =>
    obtain ⟨hoptions, hcapacity, hdiscipline⟩ :=
      kept_perform p (Bool.and_eq_true_iff.1 hall).2
    refine ⟨?_, fun n hn => ?_⟩
    · show (p.perform e).1.options.disablePurge = _
      rw [hoptions]
      exact ih.1
    · have hn : (p.perform e).1.idle.discipline = .ring n := hn
      show (p.perform e).1.capacity = some n
      rw [hcapacity]
      exact ih.2 n (hdiscipline ▸ hn)

theorem manned_of_plain (hrun : (plainSystem υ capacity options start).Run h p) :
    p.floor.Manned := by
  obtain ⟨hpool, hplain⟩ := pool_of_plain hrun
  refine manned_of_run hpool fun o ho w hkill => ?_
  have hnot := hplain o ho
  rw [hkill] at hnot
  cases hnot

/-- A worker that runs a unit has a slot and is not listed, so that a ring has a place for it. -/
theorem roomy_of_run (hrun : (plainSystem υ capacity options start).Run h p) {w : WorkerId}
    (hbusy : p.isBusy w = true) (now : Nat) : p.idle.insert? w now ≠ none := by
  intro hfull
  obtain ⟨n, hring, hsize⟩ := IdleList.insert?_eq_none_iff.1 hfull
  obtain ⟨hpool, hplain⟩ := pool_of_plain hrun
  have ht := tidy_of_run hpool
  have hcapacity := (ring_of_run hrun).2 n hring
  have hkept : ∀ o ∈ h, ¬Shrinks o := fun o ho => by
    have hsame := (kept_perform o.before (hplain o ho)).2.1
    have hcap : ((poolSystem υ).after o).cap = o.before.cap := by
      show (o.before.perform o.event).1.cap = o.before.cap
      rw [cap, cap, hsame]
    simp [Shrinks, hcap]
  have hrunning := running_le_cap hpool (by simp [hcapacity]) hkept
  rw [cap_of_capacity hcapacity] at hrunning
  have hslots : p.workers.length ≤ p.running := ht.slots
  have hlisted : p.idle.size + 1 ≤ p.workers.length := by
    obtain ⟨x, hx, rfl, -, -⟩ := unstarted_of_isBusy ht hbusy
    have hnodup : (x.id :: p.floor.idle).Nodup :=
      List.nodup_cons.2 ⟨not_idle_of_isBusy ht hbusy, ht.idle_nodup⟩
    have hthere : x.id :: p.floor.idle ⊆ p.floor.workers.map (·.id) :=
      List.cons_subset.2 ⟨List.mem_map_of_mem hx, manned_of_plain hrun⟩
    have hlength := (List.subperm_of_subset hnodup hthere).length_le
    rwa [List.length_cons, List.length_map, show p.floor.idle.length = p.idle.size from
      List.length_map _] at hlength
  omega

theorem steady_of_run (hrun : (plainSystem υ capacity options start).Run h p)
    (hpurge : options.disablePurge = true) : p.Steady := by
  obtain ⟨hpool, -⟩ := pool_of_plain hrun
  exact ⟨tidy_of_run hpool, listed_of_run hpool, manned_of_plain hrun, sealed_of_run hpool,
    (ring_of_run hrun).1.trans hpurge, fun w now hbusy => roomy_of_run hrun hbusy now⟩

/-! ## Pairs of histories -/

/-- The same has happened to a ring and to a stack: events that differ at most in the worker that
they are about, and the one worker did what the other did. -/
inductive Paired (capacity : Int) (options : PoolOptions) (start : Nat) :
    List (Occurrence (Pool υ) (PoolEvent υ)) → Pool υ →
      List (Occurrence (Pool υ) (PoolEvent υ)) → Pool υ → Prop
  | start {p q : Pool υ} :
      (plainSystem υ capacity { options with prealloc := true } start).starts p →
      (plainSystem υ capacity { options with prealloc := false } start).starts q →
      Paired capacity options start [] p [] q
  | next {h h' : List (Occurrence (Pool υ) (PoolEvent υ))} {p q : Pool υ} {e : PoolEvent υ}
      {v : WorkerId} : Paired capacity options start h p h' q → Pool.allows h p e = true →
      e.isPlain = true → (∀ w ∈ e.worker?, p.doing w = q.doing v) →
      Paired capacity options start (h ++ [⟨p, e⟩]) ((poolSystem υ).happen p e).1
        (h' ++ [⟨q, e.of v⟩]) ((poolSystem υ).happen q (e.of v)).1

/-- A new ring and a new stack are twins. -/
theorem twins_create (c : Option Nat) (options : PoolOptions) (now : Nat) :
    (create c { options with prealloc := true } now : Pool υ).Twins
      (create c { options with prealloc := false } now) := by
  refine ⟨?_, ?_⟩
  · have hring : ({ ({ options with prealloc := true } : PoolOptions).normalized with
        prealloc := false } : PoolOptions) =
          { ({ options with prealloc := false } : PoolOptions).normalized with
            prealloc := false } := by
      unfold PoolOptions.normalized
      dsimp only
      split <;> rfl
    unfold create
    rw [facade_debug, facade_debug]
    refine (facade_startScavenger _ now).trans (Eq.trans ?_ (facade_startScavenger _ now).symm)
    exact congrArg (fun o : PoolOptions => (({
      options := o, capacity := c, idle := { discipline := .stack } } :
        Pool υ).startScavenger now).facade) hring
  · unfold create
    rw [floor_debug, floor_debug, floor_startScavenger, floor_startScavenger]
    exact .refl _

/-- What the outside may do to one of two twins, it may do to the other. -/
theorem Twins.allows (htwins : p.Twins q) (hcalls : submitted h = submitted h')
    (hplain : e.isPlain = true) {v : WorkerId} (hsame : ∀ w ∈ e.worker?, p.doing w = q.doing v) :
    Pool.allows h p e = Pool.allows h' q (e.of v) := by
  have hdropped := congrArg Pool.dropped htwins.facade
  change p.dropped = q.dropped at hdropped
  have hcallers := congrArg Pool.callers htwins.facade
  change p.callers = q.callers at hcallers
  cases e with
  | complete w now => exact isBusy_of_doing (hsame w rfl)
  | crash w payload => exact isBusy_of_doing (hsame w rfl)
  | _ => simp [Pool.allows, PoolEvent.of, hdropped, hcallers, hcalls]

/-- Whatever a worker of one of two twins does, some worker of the other does. -/
theorem Twins.exists_counterpart (htwins : p.Twins q) (hq : q.floor.Tidy) (w : WorkerId) :
    ∃ v, p.doing w = q.doing v := by
  cases hw : p.worker? w with
  | none =>
    have hnobody : q.worker? q.nextWorker = none := List.find?_eq_none.2 fun y hy => by
      have hne : y.id ≠ q.nextWorker := Nat.ne_of_lt (hq.old y hy)
      simpa using hne
    exact ⟨q.nextWorker, by rw [doing, doing, hw, hnobody]⟩
  | some x =>
    obtain ⟨hx, -⟩ := mem_of_worker? hw
    have hstate : x.state ∈ q.floor.staff := htwins.staff.subset (List.mem_map_of_mem hx)
    obtain ⟨y, hy, hsame⟩ := List.mem_map.1 hstate
    exact ⟨y.id, by rw [doing_of_mem hq hy, hsame, doing, hw, Option.map_some]⟩

/-- Both sides of a pair are histories, and the pools are twins. -/
theorem twins_of_paired (hpurge : options.disablePurge = true)
    (hpaired : Paired capacity options start h p h' q) :
    (plainSystem υ capacity { options with prealloc := true } start).Run h p ∧
      (plainSystem υ capacity { options with prealloc := false } start).Run h' q ∧ p.Twins q ∧
        submitted h = submitted h' := by
  induction hpaired with
  | start hs hs' =>
    refine ⟨.start hs, .start hs', ?_, rfl⟩
    obtain ⟨p₀, hnew, rfl⟩ := hs
    obtain ⟨q₀, hnew', rfl⟩ := hs'
    obtain ⟨rfl, -⟩ := new_eq_ok_iff.1 hnew
    obtain ⟨rfl, -⟩ := new_eq_ok_iff.1 hnew'
    have htwins := @twins_create υ (bound? capacity) options start
    exact ⟨htwins.facade, htwins.staff⟩
  | @next h h' p q e v _ hall hplain hsame ih =>
    obtain ⟨hleft, hright, htwins, hcalls⟩ := ih
    have hall' := (htwins.allows hcalls hplain hsame).symm.trans hall
    have hafter := (htwins.perform (steady_of_run hleft hpurge) (steady_of_run hright hpurge) hall
      hplain hsame).1
    refine ⟨hleft.next (Bool.and_eq_true_iff.2 ⟨hall, hplain⟩),
      hright.next (Bool.and_eq_true_iff.2 ⟨hall', (PoolEvent.isPlain_of v e).trans hplain⟩),
      ⟨hafter.facade, hafter.staff⟩, ?_⟩
    rw [submitted, submitted] at hcalls
    rw [submitted, submitted, List.filterMap_append, List.filterMap_append, hcalls]
    simp only [List.filterMap_cons, List.filterMap_nil, PoolEvent.begins?_of v e]

/-- Every history of the ring is paired with one of the stack. -/
theorem exists_stack (hpurge : options.disablePurge = true)
    (hrun : (plainSystem υ capacity { options with prealloc := true } start).Run h p) :
    ∃ h' q, Paired capacity options start h p h' q := by
  induction hrun with
  | start hs =>
    exact ⟨[], _, .start hs ⟨create (bound? capacity) { options with prealloc := false } start,
      new_eq_ok_iff.2 ⟨rfl, by simp⟩, rfl⟩⟩
  | @next h p e _ hall ih =>
    obtain ⟨hall, hplain⟩ := Bool.and_eq_true_iff.1 hall
    obtain ⟨h', q, hpaired⟩ := ih
    obtain ⟨-, hright, htwins, -⟩ := twins_of_paired hpurge hpaired
    obtain ⟨v, hv⟩ := htwins.exists_counterpart (steady_of_run hright hpurge).tidy
      (e.worker?.getD 0)
    exact ⟨_, _, hpaired.next hall hplain fun w hw => by rw [← hv, hw, Option.getD_some]⟩

/-- Every history of the stack is paired with one of the ring, if there is a ring. -/
theorem exists_ring (hcap : 1 ≤ capacity) (hpurge : options.disablePurge = true)
    (hrun : (plainSystem υ capacity { options with prealloc := false } start).Run h' q) :
    ∃ h p, Paired capacity options start h p h' q := by
  induction hrun with
  | start hs =>
    have hbounded : (bound? capacity).isSome = true := by
      rw [bound?, if_neg (by omega)]
      rfl
    exact ⟨[], _, .start ⟨create (bound? capacity) { options with prealloc := true } start,
      new_eq_ok_iff.2 ⟨rfl, fun _ => hbounded⟩, rfl⟩ hs⟩
  | @next h' q e _ hall ih =>
    obtain ⟨hall, hplain⟩ := Bool.and_eq_true_iff.1 hall
    obtain ⟨h, p, hpaired⟩ := ih
    obtain ⟨hleft, -, htwins, hcalls⟩ := twins_of_paired hpurge hpaired
    obtain ⟨w, hw⟩ := htwins.symm.exists_counterpart (steady_of_run hleft hpurge).tidy
      (e.worker?.getD 0)
    have hsame : ∀ v ∈ e.worker?, q.doing v = p.doing w := fun v hv => by
      rw [← hw, hv, Option.getD_some]
    have hall' := (htwins.symm.allows hcalls.symm hplain hsame).symm.trans hall
    have hnext := hpaired.next (v := e.worker?.getD 0) hall'
      ((PoolEvent.isPlain_of w e).trans hplain) fun u hu => by rw [PoolEvent.of_worker hu, hw]
    rw [PoolEvent.of_of] at hnext
    exact ⟨_, _, hnext⟩

/-- A ring and a stack made with the same options and without a purge. Whatever is the same that
happens to both, they have the same counts and flag after every event, and give the same answers;
so does a release that waits; and whoever ends a unit finds room in the ring. Whatever can happen to
one of them, something can happen to the other that is the same. -/
theorem ring_and_stack (hcap : 1 ≤ capacity) (hpurge : options.disablePurge = true) (start : Nat) :
    (∀ (h h' : List (Occurrence (Pool υ) (PoolEvent υ))) (p q : Pool υ),
      Paired capacity options start h p h' q →
      (p.running = q.running ∧ p.free = q.free ∧ p.waiting = q.waiting ∧ p.closed = q.closed) ∧
      (∀ e v, Pool.allows h p e = true → e.isPlain = true →
        (∀ w ∈ e.worker?, p.doing w = q.doing v) → (p.perform e).2 = (q.perform (e.of v)).2) ∧
      (∀ wait now, p.checkRelease wait now = q.checkRelease wait now) ∧
      ∀ w now, p.isBusy w = true → p.idle.insert? w now ≠ none) ∧
    (∀ (h : List (Occurrence (Pool υ) (PoolEvent υ))) (p : Pool υ),
      (plainSystem υ capacity { options with prealloc := true } start).Run h p →
        ∃ h' q, Paired capacity options start h p h' q) ∧
    ∀ (h' : List (Occurrence (Pool υ) (PoolEvent υ))) (q : Pool υ),
      (plainSystem υ capacity { options with prealloc := false } start).Run h' q →
        ∃ h p, Paired capacity options start h p h' q := by
  refine ⟨fun h h' p q hpaired => ?_, fun h p hrun => exists_stack hpurge hrun,
    fun h' q hrun => exists_ring hcap hpurge hrun⟩
  obtain ⟨hleft, hright, htwins, -⟩ := twins_of_paired hpurge hpaired
  have hp := steady_of_run hleft hpurge
  have hq := steady_of_run hright hpurge
  have hsame : ∀ {α : Type} (g : Pool υ → α), g p.facade = g q.facade :=
    fun g => congrArg g htwins.facade
  exact ⟨⟨hsame running, hsame free, hsame waiting, hsame closed⟩,
    fun e v hall hplain hdoing => (htwins.perform hp hq hall hplain hdoing).2,
    fun wait now => hsame fun r => r.checkRelease wait now, hp.roomy⟩

/-- Two workers go idle, one after the other. The ring hands the next unit to the first one and the
stack to the second one, which do the same with it. -/
theorem ring_and_stack_reused : ∃ (h h' : List (Occurrence (Pool Nat) (PoolEvent Nat)))
    (p q : Pool Nat), (1 : Int) ≤ 2 ∧ (PoolOptions.disablePurge { disablePurge := true }) = true ∧
      Paired 2 { disablePurge := true } 0 h p h' q ∧ p.isBusy 0 = true ∧ p.idle.listed = [1] ∧
      q.isBusy 1 = true ∧ q.idle.listed = [0] ∧
      (p.running = q.running ∧ p.free = q.free ∧ p.waiting = q.waiting ∧ p.closed = q.closed) ∧
      ∀ now, p.idle.insert? 0 now ≠ none := by
  have hpaired := (@Paired.start Nat 2 { disablePurge := true } 0 _ _
      ⟨create (some 2) { disablePurge := true, prealloc := true } 0, rfl, rfl⟩
      ⟨create (some 2) { disablePurge := true } 0, rfl, rfl⟩)
    |>.next (e := .submit 0 10) (v := 0) rfl rfl (fun _ hw => nomatch hw)
    |>.next (e := .submit 1 11) (v := 0) rfl rfl (fun _ hw => nomatch hw)
    |>.next (e := .pollWorker 0) (v := 0) rfl rfl (fun _ hw => Option.some.inj hw ▸ rfl)
    |>.next (e := .pollWorker 1) (v := 1) rfl rfl (fun _ hw => Option.some.inj hw ▸ rfl)
    |>.next (e := .complete 0 1) (v := 0) rfl rfl (fun _ hw => Option.some.inj hw ▸ rfl)
    |>.next (e := .complete 1 1) (v := 1) rfl rfl (fun _ hw => Option.some.inj hw ▸ rfl)
    |>.next (e := .submit 2 12) (v := 0) rfl rfl (fun _ hw => nomatch hw)
    |>.next (e := .pollWorker 0) (v := 1) rfl rfl (fun _ hw => Option.some.inj hw ▸ rfl)
  obtain ⟨hsame, -, -⟩ := @ring_and_stack Nat 2 { disablePurge := true } (by decide) rfl 0
  obtain ⟨hcounts, -, -, hroom⟩ := hsame _ _ _ _ hpaired
  exact ⟨_, _, _, _, by decide, rfl, hpaired, rfl, rfl, rfl, rfl, hcounts,
    fun now => hroom 0 now rfl⟩

end Pool

end Overseer
