import Overseer.Proofs.Pool.Facade
import Overseer.Proofs.Pool.Units

/-!
# What the workers of a pool do

The `staff` of a pool is what its workers do, whoever does it. Two pools are `Twins` if they have
one facade, and their workers do the same, each in one of them what somebody does in the other. As
the idle workers are those that wait for a message, twins have as many of them; so an event of one
of them and the same event of the other, about a worker that does the same, have the same answer
and leave twins (`Twins.perform`).
-/

namespace Overseer

variable {υ : Type}

/-- What a worker does, whoever it is. -/
def Worker.state (x : Worker υ) : WorkerPhase υ × List (Message υ) := (x.phase, x.inbox)

/-- Does a worker that does this wait for a message? -/
def isWaiting : WorkerPhase υ × List (Message υ) → Bool
  | (.parked, []) => true
  | _ => false

theorem isWaiting_state (x : Worker υ) : isWaiting x.state = x.isWaiting := by
  unfold Worker.state Worker.isWaiting
  cases x.phase <;> cases x.inbox <;> rfl

/-- What becomes of a worker when all that wait are told to exit. -/
def dismissed : WorkerPhase υ × List (Message υ) → WorkerPhase υ × List (Message υ)
  | (.parked, []) => (.parked, [.stop])
  | s => s

theorem IdleList.detachLive_of_nil {α : Type} {l : IdleList α} (h : l.items = [])
    (live : α → Bool) : l.detachLive live = ([], none, l) := by
  obtain ⟨discipline, items⟩ := l
  obtain rfl : items = [] := h
  cases discipline <;> rfl

namespace Floor

variable {f f' : Floor υ} {x : Worker υ}

/-- What the workers do, whoever does it. -/
def staff (f : Floor υ) : List (WorkerPhase υ × List (Message υ)) := f.workers.map Worker.state

/-- What one worker does, and what the others do. -/
theorem Tidy.staff_perm (hf : f.Tidy) (hx : x ∈ f.workers) (n : Nat) :
    f.staff.Perm (x.state :: (f.without x.id n).staff) :=
  (perm_cons_filter hf.nodup hx).map Worker.state

/-- A change to one worker changes what that worker does. -/
theorem Tidy.staff_map (hf : f.Tidy) (hx : x ∈ f.workers) {m : Worker υ → Worker υ}
    (hm : ∀ y, y.id ≠ x.id → m y = y) (n : Nat) : ((f.workers.map m).map Worker.state).Perm
      ((m x).state :: (f.without x.id n).staff) := by
  have hsplit := hf.split_map hx hm fun y => [y.state]
  rwa [← List.map_eq_flatMap, ← List.map_eq_flatMap, List.singleton_append] at hsplit

theorem Tidy.staff_setPhase (hf : f.Tidy) (hx : x ∈ f.workers) (phase : WorkerPhase υ)
    (inbox : List (Message υ)) (n : Nat) : (f.setPhase x.id phase inbox).staff.Perm
      ((phase, inbox) :: (f.without x.id n).staff) := by
  have hmap := hf.staff_map hx (m := fun y =>
    if y.id == x.id then { y with phase := phase, inbox := inbox } else y)
    (fun y hne => by rw [if_neg (by simpa using hne)]) n
  simp only [beq_self_eq_true, if_true] at hmap
  exact hmap

theorem Tidy.staff_tell (hf : f.Tidy) (hx : x ∈ f.workers) (m : Message υ) (n : Nat) :
    (f.tell [x.id] m).staff.Perm ((x.phase, x.inbox ++ [m]) :: (f.without x.id n).staff) := by
  have hmap := hf.staff_map hx (m := fun y =>
    if y.id ∈ [x.id] then { y with inbox := y.inbox ++ [m] } else y)
    (fun y hne => by rw [if_neg (by simpa using hne)]) n
  rwa [if_pos (List.mem_singleton_self _)] at hmap

/-- If everybody is taken off the list, everybody who waits is told to exit. -/
theorem Sheds.staff (h : f.Sheds f') (hf : f.Tidy) (hlisted : f.Listed) (hnobody : f'.idle = []) :
    f'.staff = f.staff.map dismissed := by
  obtain ⟨ws, rest, hall, rfl⟩ := h
  obtain rfl : rest = [] := hnobody
  rw [List.append_nil] at hall
  subst hall
  simp only [Floor.staff, tell, List.map_map]
  refine List.map_congr_left fun x hx => ?_
  dsimp only [Function.comp]
  split
  · rename_i hidle
    obtain ⟨hphase, hinbox⟩ := hf.waits x hx hidle
    simp [Worker.state, dismissed, hphase, hinbox]
  · rename_i hbusy
    have hsame : ¬(x.phase = .parked ∧ x.inbox = []) := fun hwaits =>
      hbusy (hlisted x hx hwaits.1 hwaits.2)
    unfold Worker.state dismissed
    split
    · rename_i heq
      exact absurd (Prod.mk.inj heq) hsame
    · rfl

/-- As many are idle as wait for a message. -/
theorem length_idle (hf : f.Tidy) (hlisted : f.Listed) (hmanned : f.Manned) :
    f.idle.length = f.staff.countP isWaiting := by
  rw [(idle_perm hf hlisted hmanned).length_eq, List.length_map, ← List.countP_eq_length_filter,
    Floor.staff, List.countP_map]
  exact List.countP_congr fun x _ => by simp [isWaiting_state]

end Floor

namespace Pool

variable {p q : Pool υ} {x y : Worker υ}

/-- Two pools have one facade, and their workers do the same. -/
structure Twins (p q : Pool υ) : Prop where
  facade : p.facade = q.facade
  staff : p.floor.staff.Perm q.floor.staff

/-- What is true of a pool that does not purge, and of which no task was dropped. -/
structure Steady (p : Pool υ) : Prop where
  tidy : p.floor.Tidy
  listed : p.floor.Listed
  manned : p.floor.Manned
  isSealed : p.Sealed
  disabled : p.options.disablePurge = true
  roomy : ∀ w now, p.isBusy w = true → p.idle.insert? w now ≠ none

theorem Twins.symm (h : p.Twins q) : q.Twins p := ⟨h.facade.symm, h.staff.symm⟩

/-- What depends on the facade alone does the same to the facades of twins. -/
theorem Twins.facade_eq (h : p.Twins q) {g : Pool υ → Pool υ}
    (hg : ∀ r, (g r).facade = (g r.facade).facade) : (g p).facade = (g q).facade := by
  rw [hg p, hg q, h.facade]

/-- What leaves the workers alone, and depends on the facade alone, leaves twins. -/
theorem Twins.of_staff (h : p.Twins q) {g : Pool υ → Pool υ}
    (hg : ∀ r, (g r).facade = (g r.facade).facade)
    (hkept : ∀ r, (g r).floor.staff = r.floor.staff) : (g p).Twins (g q) := by
  refine ⟨h.facade_eq hg, ?_⟩
  rw [hkept, hkept]
  exact h.staff

theorem Twins.others (h : p.Twins q) (hp : p.floor.Tidy) (hq : q.floor.Tidy) (hx : x ∈ p.workers)
    (hy : y ∈ q.workers) (hsame : x.state = y.state) (n m : Nat) :
    (p.floor.without x.id n).staff.Perm (q.floor.without y.id m).staff := by
  have hleft := hp.staff_perm (f := p.floor) hx n
  have hright := hq.staff_perm (f := q.floor) hy m
  rw [hsame] at hleft
  exact (hleft.symm.trans (h.staff.trans hright)).cons_inv

theorem Twins.idle_eq_nil (h : p.Twins q) (hp : p.Steady) (hq : q.Steady) :
    p.floor.idle = [] ↔ q.floor.idle = [] := by
  rw [← List.length_eq_zero_iff, ← List.length_eq_zero_iff,
    Floor.length_idle hp.tidy hp.listed hp.manned, Floor.length_idle hq.tidy hq.listed hq.manned,
    h.staff.countP_eq]

/-! ## Callers -/

/-- An open pool with idle workers hands the unit to one of them. -/
theorem attempt_hands (hp : p.floor.Manned) (hopen : p.closed = false)
    (hidle : p.floor.idle ≠ []) (c : CallerId) (u : υ) : ∃ x ∈ p.workers, x.id ∈ p.floor.idle ∧
      (p.attempt c u).2 = .accepted ∧ (p.attempt c u).1.facade = p.facade ∧
        (p.attempt c u).1.floor.staff = (p.floor.tell [x.id] (.unit u)).staff := by
  have hnot : ¬p.closed = true := by simp [hopen]
  unfold attempt
  rw [if_neg hnot]
  split
  · rename_i dead w rest hd
    obtain ⟨hlive, hlisted⟩ := IdleList.listed_of_detachLive hd
    obtain ⟨x, hx, rfl⟩ := List.mem_map.1 (isAlive_iff.1 hlive)
    refine ⟨x, hx, hlisted.subset List.mem_cons_self, rfl, ?_, ?_⟩
    · rw [facade_send, facade_discard]
      rfl
    · rw [floor_send, floor_discard]
      rfl
  · rename_i dead rest hd
    have hnobody : p.idle.listed.filter p.isAlive = [] :=
      IdleList.detachLive_eq_none_iff.1 (by rw [hd])
    obtain ⟨w, hw⟩ := List.exists_mem_of_ne_nil _ hidle
    exact absurd (isAlive_iff.2 (hp hw)) (List.filter_eq_nil_iff.1 hnobody w hw)

/-- Without an idle worker there has to be room for a new one. -/
theorem attempt_of_nobody (hidle : p.floor.idle = []) (c : CallerId) (u : υ) : p.attempt c u =
    if p.closed then (p, .refused .closed)
    else if p.hasRoom then (p.spawn u, .accepted)
    else if p.mayWait then (p.park c u, .parked)
    else (p.reject, .refused .overload) := by
  unfold attempt
  rw [IdleList.detachLive_of_nil (List.map_eq_nil_iff.1 hidle)]
  rfl

/-- Without an idle worker, what an attempt comes to depends on the facade alone. -/
theorem facade_attempt (hidle : p.floor.idle = []) (c : CallerId) (u : υ) :
    (p.attempt c u).1.facade = (p.facade.attempt c u).1.facade ∧
      (p.attempt c u).2 = (p.facade.attempt c u).2 := by
  have hfacade : p.facade.closed = p.closed ∧ p.facade.hasRoom = p.hasRoom ∧
      p.facade.mayWait = p.mayWait := ⟨rfl, rfl, rfl⟩
  rw [attempt_of_nobody hidle, attempt_of_nobody (p := p.facade) rfl, hfacade.1, hfacade.2.1,
    hfacade.2.2]
  split
  · exact ⟨rfl, rfl⟩
  · split
    · exact ⟨rfl, rfl⟩
    · split <;> exact ⟨rfl, rfl⟩

/-- Without an idle worker, only a new one can be added. -/
theorem staff_attempt (hidle : p.floor.idle = []) (c : CallerId) (u : υ) :
    (p.attempt c u).1.floor.staff = p.floor.staff ++
      if (p.attempt c u).2 = .accepted then [(.spawned u, [])] else [] := by
  rw [attempt_of_nobody hidle]
  split
  · simp
  · split
    · simp [Floor.staff, Floor.hire, Worker.state]
    · split <;> exact (List.append_nil _).symm

/-- Twins meet a caller in the same way. -/
theorem Twins.attempt (h : p.Twins q) (hp : p.Steady) (hq : q.Steady) (c : CallerId) (u : υ) :
    (p.attempt c u).1.Twins (q.attempt c u).1 ∧ (p.attempt c u).2 = (q.attempt c u).2 := by
  have hclosed := congrArg closed h.facade
  change p.closed = q.closed at hclosed
  cases hshut : p.closed with
  | true =>
    rw [attempt_of_closed hshut, attempt_of_closed (hclosed ▸ hshut)]
    exact ⟨h, rfl⟩
  | false =>
    by_cases hidle : p.floor.idle = []
    · have hidle' := (h.idle_eq_nil hp hq).1 hidle
      obtain ⟨hfacade, hanswer⟩ := facade_attempt hidle c u
      obtain ⟨hfacade', hanswer'⟩ := facade_attempt hidle' c u
      have hsame : (p.attempt c u).2 = (q.attempt c u).2 := by
        rw [hanswer, hanswer', h.facade]
      refine ⟨⟨?_, ?_⟩, hsame⟩
      · rw [hfacade, hfacade', h.facade]
      · rw [staff_attempt hidle, staff_attempt hidle', hsame]
        exact h.staff.append_right _
    · have hidle' := fun hnil => hidle ((h.idle_eq_nil hp hq).2 hnil)
      obtain ⟨x, hx, hwaits, hanswer, hfacade, hstaff⟩ := attempt_hands hp.manned hshut hidle c u
      obtain ⟨y, hy, hwaits', hanswer', hfacade', hstaff'⟩ :=
        attempt_hands hq.manned (hclosed ▸ hshut) hidle' c u
      obtain ⟨hphase, hinbox⟩ := hp.tidy.waits x hx hwaits
      obtain ⟨hphase', hinbox'⟩ := hq.tidy.waits y hy hwaits'
      have hsame : x.state = y.state := by simp [Worker.state, hphase, hinbox, hphase', hinbox']
      refine ⟨⟨?_, ?_⟩, hanswer.trans hanswer'.symm⟩
      · rw [hfacade, hfacade', h.facade]
      · rw [hstaff, hstaff']
        have hleft := hp.tidy.staff_tell (f := p.floor) hx (.unit u) 0
        have hright := hq.tidy.staff_tell (f := q.floor) hy (.unit u) 0
        rw [hphase, hinbox] at hleft
        rw [hphase', hinbox'] at hright
        exact hleft.trans (((h.others hp.tidy hq.tidy hx hy hsame 0 0).cons _).trans hright.symm)

/-! ## Workers -/

/-- Workers that do the same go on with the same. -/
theorem Twins.setPhase (h : p.Twins q) (hp : p.Steady) (hq : q.Steady) (hx : x ∈ p.workers)
    (hy : y ∈ q.workers) (hsame : x.state = y.state) (phase : WorkerPhase υ)
    (inbox : List (Message υ)) :
    (p.setPhase x.id phase inbox).Twins (q.setPhase y.id phase inbox) := by
  refine ⟨h.facade, ?_⟩
  have hleft := hp.tidy.staff_setPhase (f := p.floor) hx phase inbox 0
  have hright := hq.tidy.staff_setPhase (f := q.floor) hy phase inbox 0
  exact hleft.trans (((h.others hp.tidy hq.tidy hx hy hsame 0 0).cons _).trans hright.symm)

/-- Workers that do the same come to their ends. -/
theorem Twins.exit (h : p.Twins q) (hp : p.Steady) (hq : q.Steady) (hx : x ∈ p.workers)
    (hy : y ∈ q.workers) (hsame : x.state = y.state) : (p.exit x.id).Twins (q.exit y.id) := by
  refine ⟨?_, ?_⟩
  · rw [facade_exit, facade_exit, h.facade]
  · rw [floor_exit, floor_exit]
    exact h.others hp.tidy hq.tidy hx hy hsame _ _

theorem Twins.pollWorker (h : p.Twins q) (hp : p.Steady) (hq : q.Steady) (hx : x ∈ p.workers)
    (hy : y ∈ q.workers) (hsame : x.state = y.state) :
    (p.pollWorker x.id).1.Twins (q.pollWorker y.id).1 ∧
      (p.pollWorker x.id).2 = (q.pollWorker y.id).2 := by
  obtain ⟨hphase, hinbox⟩ := Prod.mk.inj hsame
  have hfound := worker?_of_mem hp.tidy hx
  have hfound' := worker?_of_mem hq.tidy hy
  unfold Pool.pollWorker
  rw [hfound, hfound']
  dsimp only
  rw [← hphase, ← hinbox]
  split
  · exact ⟨h.setPhase hp hq hx hy hsame _ _, rfl⟩
  · exact ⟨h.setPhase hp hq hx hy hsame _ _, rfl⟩
  · exact ⟨h.exit hp hq hx hy hsame, rfl⟩
  · exact ⟨h, rfl⟩
  · exact ⟨h, rfl⟩

/-- What the worker does, if it exists. -/
def doing (p : Pool υ) (w : WorkerId) : Option (WorkerPhase υ × List (Message υ)) :=
  (p.worker? w).map Worker.state

theorem doing_of_mem (hp : p.floor.Tidy) (hx : x ∈ p.workers) : p.doing x.id = some x.state := by
  rw [doing, worker?_of_mem hp hx, Option.map_some]

/-- Workers that do the same exist both or neither. -/
theorem doing_cases {w v : WorkerId} (hsame : p.doing w = q.doing v) :
    p.worker? w = none ∧ q.worker? v = none ∨
      ∃ x y, p.worker? w = some x ∧ q.worker? v = some y ∧ x.state = y.state := by
  unfold doing at hsame
  cases hw : p.worker? w with
  | none =>
    rw [hw, Option.map_none] at hsame
    exact .inl ⟨rfl, Option.map_eq_none_iff.1 hsame.symm⟩
  | some x =>
    rw [hw, Option.map_some] at hsame
    obtain ⟨y, hv, hstate⟩ := Option.map_eq_some_iff.1 hsame.symm
    exact .inr ⟨x, y, rfl, hv, hstate.symm⟩

theorem isBusy_of_doing {w v : WorkerId} (hsame : p.doing w = q.doing v) :
    p.isBusy w = q.isBusy v := by
  unfold isBusy
  rcases doing_cases hsame with ⟨hw, hv⟩ | ⟨x, y, hw, hv, hstate⟩
  · rw [hw, hv]
  · obtain ⟨hphase, -⟩ := Prod.mk.inj hstate
    rw [hw, hv, Option.any_some, Option.any_some, hphase]

/-- A worker that runs a unit exists, and so does one that does the same. -/
theorem exists_of_isBusy {w v : WorkerId} (hsame : p.doing w = q.doing v)
    (hbusy : p.isBusy w = true) :
    ∃ x ∈ p.workers, ∃ y ∈ q.workers, x.id = w ∧ y.id = v ∧ x.state = y.state := by
  rcases doing_cases hsame with ⟨hw, -⟩ | ⟨x, y, hw, hv, hstate⟩
  · simp [isBusy, hw] at hbusy
  · obtain ⟨hx, rfl⟩ := mem_of_worker? hw
    obtain ⟨hy, rfl⟩ := mem_of_worker? hv
    exact ⟨x, hx, y, hy, rfl, rfl, hstate⟩

/-- Whether a worker that has ended its unit stays depends on the facade alone, if the list has
room for it. -/
theorem staff_complete {w : WorkerId} {now : Nat} (hroom : p.idle.insert? w now ≠ none) :
    (p.complete w now).floor.staff =
      if p.dropped || (p.isOverCapacity || p.closed) then
        (p.floor.without w p.floor.freed).staff
      else (p.floor.setPhase w .parked []).staff := by
  unfold Pool.complete
  cases p.dropped with
  | true => exact congrArg Floor.staff (floor_exit p w)
  | false =>
    simp only [Bool.false_eq_true, if_false, Bool.false_or]
    split
    · rw [floor_exit, floor_notifyAll]
    · split
      · rename_i hfull
        exact absurd hfull hroom
      · rw [floor_notifyOne]
        rfl

theorem Twins.complete (h : p.Twins q) (hp : p.Steady) (hq : q.Steady) (hx : x ∈ p.workers)
    (hy : y ∈ q.workers) (hsame : x.state = y.state) (hbusy : p.isBusy x.id = true) (now : Nat) :
    (p.complete x.id now).Twins (q.complete y.id now) := by
  have hroom := hp.roomy x.id now hbusy
  have hdoing : p.doing x.id = q.doing y.id := by
    rw [doing_of_mem hp.tidy hx, doing_of_mem hq.tidy hy, hsame]
  have hroom' := hq.roomy y.id now (isBusy_of_doing hdoing ▸ hbusy)
  have hshut := congrArg (fun r : Pool υ => r.dropped || (r.isOverCapacity || r.closed)) h.facade
  change (p.dropped || (p.isOverCapacity || p.closed)) =
    (q.dropped || (q.isOverCapacity || q.closed)) at hshut
  refine ⟨?_, ?_⟩
  · rw [facade_complete hroom y.id, h.facade, ← facade_complete hroom']
  · rw [staff_complete hroom, staff_complete hroom', hshut]
    split
    · exact h.others hp.tidy hq.tidy hx hy hsame _ _
    · exact (h.setPhase hp hq hx hy hsame .parked []).staff

theorem Twins.crash (h : p.Twins q) (hp : p.Steady) (hq : q.Steady) (hx : x ∈ p.workers)
    (hy : y ∈ q.workers) (hsame : x.state = y.state) (payload : Payload) :
    (p.crash x.id payload).Twins (q.crash y.id payload) := by
  refine ⟨?_, ?_⟩
  · rw [facade_crash p x.id y.id, h.facade, ← facade_crash]
  · rw [floor_crash, floor_crash]
    exact h.others hp.tidy hq.tidy hx hy hsame _ _

/-! ## Releases -/

/-- An event that takes everybody off the list does the same to the workers of twins. -/
theorem Twins.sheds (h : p.Twins q) (hp : p.Steady) (hq : q.Steady) {p' q' : Pool υ}
    (hfacade : p'.facade = q'.facade) (hleft : p.floor.Sheds p'.floor)
    (hnobody : p'.floor.idle = []) (hright : q.floor.Sheds q'.floor)
    (hnobody' : q'.floor.idle = []) : p'.Twins q' := by
  refine ⟨hfacade, ?_⟩
  rw [hleft.staff hp.tidy hp.listed hnobody, hright.staff hq.tidy hq.listed hnobody']
  exact h.staff.map _

theorem idle_of_patrol {r s : Pool υ} (h : r.patrol = s.patrol) (hs : s.idle.items = []) :
    r.floor.idle = [] := by
  have hidle : r.idle = s.idle := eq_of_patrol (fun _ => rfl) h
  show r.idle.items.map Prod.fst = []
  rw [hidle, hs]
  rfl

/-- A release leaves nobody on the list. -/
theorem idle_release (hp : p.Sealed) : p.release.floor.idle = [] := by
  rcases patrol_release p with ⟨hclosed, hkept⟩ | ⟨-, hshut⟩
  · exact idle_of_patrol hkept (hp hclosed).1
  · exact idle_of_patrol hshut rfl

/-- A release with a deadline leaves nobody on the list of a pool that needs no scavenger. -/
theorem idle_beginRelease (hp : p.Sealed) (hpurge : p.options.disablePurge = true) (now : Nat)
    (timeout : Duration) : (p.beginRelease now timeout).1.floor.idle = [] := by
  rcases patrol_beginRelease p now timeout with ⟨hfails, hkept⟩ | ⟨-, hshut⟩
  · have hclosed := hfails.resolve_right fun hlost => by simp [hpurge] at hlost
    exact idle_of_patrol hkept (hp hclosed).1
  · exact idle_of_patrol hshut rfl

theorem idle_drop (p : Pool υ) : p.drop.floor.idle = [] :=
  idle_of_patrol (patrol_drop p) rfl

end Pool

/-! ## Every event -/

/-- The worker that an event is about. -/
def PoolEvent.worker? : PoolEvent υ → Option WorkerId
  | .pollWorker w | .complete w _ | .crash w _ | .killWorker w => some w
  | _ => none

/-- The same event about another worker, if it is about one. -/
def PoolEvent.of (v : WorkerId) : PoolEvent υ → PoolEvent υ
  | .pollWorker _ => .pollWorker v
  | .complete _ now => .complete v now
  | .crash _ payload => .crash v payload
  | .killWorker _ => .killWorker v
  | e => e

/-- The events of a pool without a scavenger whose capacity stays as it is and of which no task is
dropped. -/
def PoolEvent.isPlain : PoolEvent υ → Bool
  | .tune _ | .killWorker _ | .pollScavenger _ _ | .killScavenger _ => false
  | _ => true

namespace Pool

variable {p q : Pool υ} {e : PoolEvent υ}

theorem Steady.unpark (hp : p.Steady) (c : CallerId) : (p.unpark c).Steady :=
  ⟨{ hp.tidy with }, hp.listed, hp.manned, hp.isSealed, hp.disabled, hp.roomy⟩

theorem Twins.resume (h : p.Twins q) (hp : p.Steady) (hq : q.Steady) (c : CallerId) :
    (p.resume c).1.Twins (q.resume c).1 ∧ (p.resume c).2 = (q.resume c).2 := by
  have hcaller := congrArg (fun r : Pool υ => r.caller? c) h.facade
  change p.caller? c = q.caller? c at hcaller
  have hwoken := congrArg (fun r : Pool υ => r.notifier.isWoken c) h.facade
  change p.notifier.isWoken c = q.notifier.isWoken c at hwoken
  rcases resume_cases p c with ⟨hrests, hcold⟩ | ⟨x, hc, hwarm, htries⟩
  · rcases resume_cases q c with ⟨hrests', -⟩ | ⟨y, hc', hwarm', -⟩
    · rw [hrests, hrests']
      exact ⟨h, rfl⟩
    · have hnot := hcold y (hcaller.trans hc')
      simp [hwoken, hwarm'] at hnot
  · rcases resume_cases q c with ⟨-, hcold'⟩ | ⟨y, hc', -, htries'⟩
    · have hnot := hcold' x (hcaller.symm.trans hc)
      simp [← hwoken, hwarm] at hnot
    · obtain rfl : x = y := Option.some.inj (hc.symm.trans (hcaller.trans hc'))
      rw [htries, htries']
      have hunparked : (p.unpark c).Twins (q.unpark c) :=
        h.of_staff (facade_unpark · c) fun _ => rfl
      exact hunparked.attempt (hp.unpark c) (hq.unpark c) c x.unit

/-- Twins stay twins and answer the same, whatever happens to both. -/
theorem Twins.perform (h : p.Twins q) (hp : p.Steady) (hq : q.Steady)
    {history : List (Occurrence (Pool υ) (PoolEvent υ))} (hall : Pool.allows history p e = true)
    (hplain : e.isPlain = true) {v : WorkerId} (hsame : ∀ w ∈ e.worker?, p.doing w = q.doing v) :
    (p.perform e).1.Twins (q.perform (e.of v)).1 ∧
      (p.perform e).2 = (q.perform (e.of v)).2 := by
  cases e with
  | submit c u =>
    obtain ⟨htwins, hanswer⟩ := h.attempt hp hq c u
    exact ⟨htwins, congrArg PoolAnswer.submission hanswer⟩
  | resume c =>
    obtain ⟨htwins, hanswer⟩ := h.resume hp hq c
    exact ⟨htwins, congrArg PoolAnswer.submission hanswer⟩
  | abandon c =>
    refine ⟨h.of_staff (facade_abandon · c) fun r => ?_, rfl⟩
    rw [floor_abandon]
    rfl
  | pollWorker w =>
    rcases doing_cases (hsame w rfl) with ⟨hw, hv⟩ | ⟨x, y, hw, hv, hstate⟩
    · have hrests : p.pollWorker w = (p, .ended) := by simp [Pool.pollWorker, hw]
      have hrests' : q.pollWorker v = (q, .ended) := by simp [Pool.pollWorker, hv]
      simp only [Pool.perform, PoolEvent.of, hrests, hrests']
      exact ⟨h, trivial⟩
    · obtain ⟨hx, rfl⟩ := mem_of_worker? hw
      obtain ⟨hy, rfl⟩ := mem_of_worker? hv
      obtain ⟨htwins, hturn⟩ := h.pollWorker hp hq hx hy hstate
      exact ⟨htwins, congrArg PoolAnswer.turn hturn⟩
  | complete w now =>
    have hbusy : p.isBusy w = true := hall
    obtain ⟨x, hx, y, hy, rfl, rfl, hstate⟩ := exists_of_isBusy (hsame w rfl) hbusy
    exact ⟨h.complete hp hq hx hy hstate hbusy now, rfl⟩
  | crash w payload =>
    have hbusy : p.isBusy w = true := hall
    obtain ⟨x, hx, y, hy, rfl, rfl, hstate⟩ := exists_of_isBusy (hsame w rfl) hbusy
    exact ⟨h.crash hp hq hx hy hstate payload, rfl⟩
  | release =>
    exact ⟨h.sheds hp hq (h.facade_eq facade_release) (sheds_release hp.tidy)
      (idle_release hp.isSealed) (sheds_release hq.tidy) (idle_release hq.isSealed), rfl⟩
  | beginRelease now timeout =>
    obtain ⟨hfacade, hanswer⟩ := facade_beginRelease p now timeout
    obtain ⟨hfacade', hanswer'⟩ := facade_beginRelease q now timeout
    refine ⟨h.sheds hp hq ?_ (sheds_beginRelease hp.tidy now timeout)
      (idle_beginRelease hp.isSealed hp.disabled now timeout)
      (sheds_beginRelease hq.tidy now timeout)
      (idle_beginRelease hq.isSealed hq.disabled now timeout), ?_⟩
    · show (p.beginRelease now timeout).1.facade = (q.beginRelease now timeout).1.facade
      rw [hfacade, hfacade', h.facade]
    · show PoolAnswer.release _ = PoolAnswer.release _
      rw [hanswer, hanswer', h.facade]
  | reboot now =>
    refine ⟨h.of_staff (facade_reboot · now) fun r => ?_, rfl⟩
    rw [floor_reboot]
  | drop =>
    refine ⟨⟨h.facade_eq facade_drop, ?_⟩, rfl⟩
    show p.drop.floor.staff.Perm q.drop.floor.staff
    -- a pool counts as dropped before it tells its workers to exit
    rw [(sheds_drop hp.tidy).staff { hp.tidy with } hp.listed (idle_drop p),
      (sheds_drop hq.tidy).staff { hq.tidy with } hq.listed (idle_drop q)]
    exact h.staff.map _
  | tune _ => cases hplain
  | killWorker _ => cases hplain
  | pollScavenger _ _ => cases hplain
  | killScavenger _ => cases hplain

end Pool

end Overseer
