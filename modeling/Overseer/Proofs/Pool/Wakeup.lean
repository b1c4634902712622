import Overseer.Proofs.Pool.Front

/-!
# No caller waits for what is there

A worker that goes idle, a slot that is given back and a larger capacity are all *openings* : a
unit could be handed over. Newcomers may take an opening before the caller that was woken for it
gets its turn, wakes outlive what they were for, and woken callers go away. What holds through
all of that is a balance (`Pool.Owes`) : while callers wait that nobody has woken, there are no
more openings than callers that were woken alone and not polled since. An opening comes with a
wake, and a turn of such a caller either uses an opening or finds that there are none.

When everybody who was woken has had a turn, the balance leaves no opening for those who still
wait (`Pool.no_lost_wakeup`).
-/

namespace Overseer

namespace Pool

variable {υ : Type} {p q : Pool υ} {us : List CallerId}

/-! ## The balance -/

/-- The units that could be handed over at once, as far as there is a capacity. -/
def openings (p : Pool υ) : Nat := p.idle.size + (p.capacity.getD 0 - p.running)

/-- The notifier knows exactly the callers that are parked, and they are among `us`. -/
structure Booked (us : List CallerId) (p : Pool υ) : Prop where
  known : (p.callers.map (·.id)).Perm p.notifier.known
  nodup : p.notifier.known.Nodup
  begun : p.notifier.known ⊆ us

/-- The parked callers are booked, and at most `n` wakes are owed to them. -/
structure Owes (us : List CallerId) (n : Nat) (p : Pool υ) : Prop extends Booked us p where
  closed : p.closed = true → p.notifier.waiting = []
  bounded : p.notifier.waiting ≠ [] → p.capacity.isSome = true
  balance : p.notifier.waiting ≠ [] → p.openings ≤ p.notifier.singles + n

theorem Booked.of_front (hp : Booked us p) (h : p.front = q.front) : Booked us q := by
  have hfront : Booked us q.front :=
    h ▸ (⟨hp.known, hp.nodup, hp.begun⟩ : Booked us p.front)
  exact ⟨hfront.known, hfront.nodup, hfront.begun⟩

theorem owes_front {n : Nat} : Owes us n p.front ↔ Owes us n p :=
  ⟨fun h => ⟨⟨h.known, h.nodup, h.begun⟩, h.closed, h.bounded, h.balance⟩,
    fun h => ⟨⟨h.known, h.nodup, h.begun⟩, h.closed, h.bounded, h.balance⟩⟩

/-- What workers, scavengers and the outside know does not matter. -/
theorem Owes.of_front {n : Nat} (h : p.front = q.front) (hp : Owes us n p) : Owes us n q := by
  rw [← owes_front, ← h]
  exact owes_front.2 hp

/-- More openings are more wakes owed, and fewer openings fewer, as long as everything else that
callers see stays. -/
theorem Owes.change {n m : Nat} (hp : Owes us n p) (hcallers : q.callers = p.callers)
    (hnotifier : q.notifier = p.notifier) (hclosed : q.closed = p.closed)
    (hcapacity : q.capacity.isSome = p.capacity.isSome)
    (hopen : p.notifier.waiting ≠ [] → q.openings + n ≤ p.openings + m) : Owes us m q := by
  refine ⟨⟨?_, ?_, ?_⟩, ?_, ?_, ?_⟩
  · rw [hcallers, hnotifier]
    exact hp.known
  · rw [hnotifier]
    exact hp.nodup
  · rw [hnotifier]
    exact hp.begun
  · rw [hclosed, hnotifier]
    exact hp.closed
  · rw [hcapacity, hnotifier]
    exact hp.bounded
  · intro hw
    rw [hnotifier] at hw ⊢
    have howed := hp.balance hw
    have := hopen hw
    omega

/-- Nothing is owed while there is no opening. -/
theorem Owes.of_openings_eq_zero {n m : Nat} (hp : Owes us n p) (h : p.openings = 0) :
    Owes us m p :=
  ⟨hp.toBooked, hp.closed, hp.bounded, fun _ => by omega⟩

/-- Nothing is owed while nobody waits. -/
theorem Owes.of_waiting_eq_nil {n m : Nat} (hp : Owes us n p) (h : p.notifier.waiting = []) :
    Owes us m p :=
  ⟨hp.toBooked, hp.closed, hp.bounded, fun hw => absurd h hw⟩

/-- To wake a caller pays what is owed to one. -/
theorem Owes.notifyOne {n : Nat} (hp : Owes us (n + 1) p) : Owes us n p.notifyOne := by
  have hone : p.notifyOne.front = { p with notifier := p.notifier.one.1 }.front := by
    unfold Pool.notifyOne
    dsimp only
    split <;> rfl
  refine Owes.of_front hone.symm ⟨⟨?_, ?_, ?_⟩, ?_, ?_, ?_⟩
  · exact hp.known.trans p.notifier.known_one.symm
  · exact p.notifier.known_one.nodup_iff.2 hp.nodup
  · exact fun c hc => hp.begun (p.notifier.known_one.mem_iff.1 hc)
  · intro hc
    simp [hp.closed hc]
  · intro hw
    refine hp.bounded fun hnil => hw ?_
    simp [hnil]
  · intro hw
    have hne : p.notifier.waiting ≠ [] := fun hnil => hw (by simp [hnil])
    have hpaid := p.notifier.singles_one hne
    have howed := hp.balance hne
    show p.openings ≤ _
    simp only
    omega

/-- To wake everybody pays everything. -/
theorem Booked.notifyAll {n : Nat} (hp : Booked us p) : Owes us n p.notifyAll where
  known := hp.known.trans p.notifier.known_all.symm
  nodup := p.notifier.known_all.nodup_iff.2 hp.nodup
  begun _ hc := hp.begun (p.notifier.known_all.mem_iff.1 hc)
  closed _ := rfl
  bounded hw := absurd rfl hw
  balance hw := absurd rfl hw

/-- A slot comes with the wake for it. -/
theorem Owes.freeSlot {n : Nat} (hp : Owes us n p) : Owes us n p.freeSlot := by
  unfold Pool.freeSlot
  split
  · exact hp
  · refine Owes.notifyOne (hp.change rfl rfl rfl rfl fun _ => ?_)
    simp only [openings]
    omega

theorem Owes.exit {n : Nat} (hp : Owes us n p) (w : WorkerId) : Owes us n (p.exit w) := by
  unfold Pool.exit
  refine Owes.freeSlot (Owes.of_front ?_ hp)
  simp

/-! ## Callers -/

theorem hasRoom_iff {c : Nat} (h : p.capacity = some c) : p.hasRoom = true ↔ p.running < c := by
  simp [hasRoom, h]

/-- A new worker takes an opening. -/
theorem openings_spawn (hroom : p.hasRoom = true) (hcap : p.capacity.isSome = true) (u : υ) :
    (p.spawn u).openings + 1 ≤ p.openings := by
  obtain ⟨c, hc⟩ := Option.isSome_iff_exists.1 hcap
  have := (hasRoom_iff hc).1 hroom
  simp only [openings, spawn, hc, Option.getD_some]
  omega

/-- A pool without room and without idle workers has no opening. -/
theorem openings_eq_zero (hroom : p.hasRoom = false) (hidle : p.idle.size = 0) :
    p.openings = 0 := by
  unfold openings
  unfold hasRoom at hroom
  split at hroom
  · simp at hroom
  · rename_i c hc
    simp only [decide_eq_false_iff_not] at hroom
    simp only [hidle, hc, Option.getD_some]
    omega

/-- Who parks finds no opening. -/
theorem Owes.park {c : CallerId} (hp : Booked us p) (hclosed : p.closed = false)
    (hroom : p.hasRoom = false) (hidle : p.idle.size = 0) (hus : c ∈ us)
    (hc : c ∉ p.notifier.known) (u : υ) : Owes us 0 (p.park c u) where
  known := by
    have h := p.notifier.known_park c
    simp only [Pool.park, List.map_append, List.map_cons, List.map_nil]
    exact (List.perm_append_singleton c _).trans ((hp.known.cons c).trans h.symm)
  nodup := by
    have h := p.notifier.known_park c
    exact h.nodup_iff.2 (List.nodup_cons.2 ⟨hc, hp.nodup⟩)
  begun d hd := by
    rcases List.mem_cons.1 ((p.notifier.known_park c).mem_iff.1 hd) with rfl | hd
    · exact hus
    · exact hp.begun hd
  closed h := by
    rw [show (p.park c u).closed = p.closed from rfl, hclosed] at h
    contradiction
  bounded _ := by
    unfold hasRoom at hroom
    split at hroom
    · simp at hroom
    · rename_i c hcap
      simp [Pool.park, hcap]
  balance _ := by
    have h := openings_eq_zero hroom hidle
    have h' : (p.park c u).openings = p.openings := rfl
    omega

/-- An attempt uses an opening, or finds that there is none: it pays what was owed to the caller. -/
theorem Owes.attempt {c : CallerId} (hp : Owes us 1 p) (hus : c ∈ us)
    (hc : c ∉ p.notifier.known) (u : υ) : Owes us 0 (p.attempt c u).1 := by
  unfold Pool.attempt
  split
  · rename_i hclosed
    exact hp.of_waiting_eq_nil (hp.closed hclosed)
  · rename_i hclosed
    split
    · rename_i dead w rest hd
      have hsize := IdleList.size_of_detachLive hd
      have hused : Owes us 0 ({ p with idle := rest } : Pool υ) := by
        refine hp.change rfl rfl rfl rfl fun _ => ?_
        simp only [openings]
        omega
      refine Owes.of_front ?_ hused
      simp
    · rename_i dead rest hd
      have hsize := IdleList.size_of_detachLive_none hd
      have hfront : ({ p with idle := rest } : Pool υ).front =
          (({ p with idle := rest } : Pool υ).discard dead).front := by simp
      have hleft : Owes us 1 (({ p with idle := rest } : Pool υ).discard dead) := by
        refine Owes.of_front hfront (hp.change rfl rfl rfl rfl fun _ => ?_)
        simp only [openings]
        omega
      generalize ({ p with idle := rest } : Pool υ).discard dead = q at hfront hleft
      have hidle : q.idle.size = 0 := by
        rw [show q.idle = rest from (congrArg Pool.idle hfront).symm]
        exact hsize
      have hknown : c ∉ q.notifier.known := by
        rw [show q.notifier = p.notifier from (congrArg Pool.notifier hfront).symm]
        exact hc
      have hopen : q.closed = false := by
        rw [show q.closed = p.closed from (congrArg Pool.closed hfront).symm]
        simpa using hclosed
      dsimp only
      split
      · rename_i hroom
        exact hleft.change rfl rfl rfl rfl fun hw =>
          openings_spawn hroom (hleft.bounded hw) u
      · rename_i hroom
        have hroom : q.hasRoom = false := by simpa using hroom
        split
        · exact Owes.park hleft.toBooked hopen hroom hidle hus hknown u
        · have hzero := hleft.of_openings_eq_zero (m := 0) (openings_eq_zero hroom hidle)
          exact hzero.of_front (front_reject q).symm

/-- The caller is gone from both sides. -/
theorem Booked.forget (hp : Booked us p) (c : CallerId) :
    ((p.callers.filter (·.id != c)).map (·.id)).Perm (p.notifier.known.filter (· != c)) ∧
      (p.notifier.known.filter (· != c)).Nodup ∧ p.notifier.known.filter (· != c) ⊆ us := by
  have hids : (p.callers.filter (·.id != c)).map (·.id) =
      (p.callers.map (·.id)).filter (· != c) := by
    simp only [List.filter_map, Function.comp_def]
  rw [hids]
  exact ⟨hp.known.filter _, hp.nodup.filter _, fun d hd => hp.begun (List.mem_filter.1 hd).1⟩

theorem Owes.resume (hp : Owes us 0 p) (c : CallerId) : Owes us 0 (p.resume c).1 := by
  unfold Pool.resume
  split
  · rename_i caller _
    split
    · rename_i hwoken
      obtain ⟨hknown, hnodup, hbegun⟩ := hp.toBooked.forget c
      have hwait := p.notifier.filter_waiting hp.nodup hwoken
      have htake : (p.notifier.take c).known = p.notifier.known.filter (· != c) := by
        rw [← p.notifier.known_filter c, hwait]
        rfl
      have hsingles := p.notifier.singles_le_filter c hp.nodup
      rw [← htake] at hknown hnodup hbegun
      have hgone : Owes us 1 ({ p with
          notifier := p.notifier.take c
          waiting := p.waiting - 1
          callers := p.callers.filter (·.id != c) } : Pool υ) := by
        refine ⟨⟨hknown, hnodup, hbegun⟩, hp.closed, hp.bounded, fun hw => ?_⟩
        exact Nat.le_trans (hp.balance hw) hsingles
      have hus : c ∈ us := by
        have hw : c ∈ p.notifier.woken.map Prod.fst := by simpa [Notifier.isWoken] using hwoken
        exact hp.begun (List.mem_append_right _ hw)
      refine hgone.attempt hus ?_ caller.unit
      rw [htake]
      simp
    · exact hp
  · exact hp

/-- A wake that was meant for a caller alone goes on if the caller does. -/
theorem Owes.abandon (hp : Owes us 0 p) (c : CallerId) : Owes us 0 (p.abandon c) := by
  unfold Pool.abandon
  split
  · obtain ⟨hknown, hnodup, hbegun⟩ := hp.toBooked.forget c
    rw [← p.notifier.known_filter c] at hknown hnodup hbegun
    have hsub : p.notifier.waiting.filter (· != c) ≠ [] → p.notifier.waiting ≠ [] := by
      intro hw hnil
      simp [hnil] at hw
    unfold Notifier.leave
    dsimp only
    split
    · have hgone : Owes us 1 ({ p with
          notifier := { p.notifier with
            waiting := p.notifier.waiting.filter (· != c)
            woken := p.notifier.woken.filter fun w => w.1 != c }
          waiting := p.waiting - 1
          callers := p.callers.filter (·.id != c) } : Pool υ) := by
        refine ⟨⟨hknown, hnodup, hbegun⟩, fun h => ?_, fun hw => hp.bounded (hsub hw),
          fun hw => ?_⟩
        · simp [hp.closed h]
        · exact Nat.le_trans (hp.balance (hsub hw)) (p.notifier.singles_le_filter c hp.nodup)
      refine Owes.of_front ?_ hgone.notifyOne
      unfold Pool.notifyOne
      dsimp only
      split <;> rfl
    · rename_i hsingle
      refine ⟨⟨hknown, hnodup, hbegun⟩, fun h => ?_, fun hw => hp.bounded (hsub hw),
          fun hw => ?_⟩
      · have := hp.closed h
        simp [this]
      · have hothers : p.notifier.woken.countP (fun w => w.2 == .single) =
            (p.notifier.woken.filter fun w => w.1 != c).countP (fun w => w.2 == .single) := by
          rw [List.countP_filter]
          refine List.countP_congr fun w hw => ?_
          have hne : w.2 = .single → w.1 ≠ c := fun h2 h1 =>
            hsingle (List.any_eq_true.2 ⟨w, hw, by simp [h1, h2]⟩)
          by_cases h2 : w.2 = .single
          · simp [h2, hne h2]
          · simp [h2]
        exact Nat.le_trans (hp.balance (hsub hw)) (Nat.le_of_eq hothers)
  · exact hp

/-! ## Workers and the scavenger -/

theorem Owes.pollWorker {n : Nat} (hp : Owes us n p) (w : WorkerId) :
    Owes us n (p.pollWorker w).1 := by
  unfold Pool.pollWorker
  split
  · exact hp
  · split
    · exact Owes.of_front (front_setPhase ..).symm hp
    · exact Owes.of_front (front_setPhase ..).symm hp
    · exact hp.exit w
    · exact hp
    · exact hp

theorem Owes.complete {n : Nat} (hp : Owes us n p) (w : WorkerId) (now : Nat) :
    Owes us n (p.complete w now) := by
  unfold Pool.complete
  split
  · exact hp.exit w
  · split
    · exact Owes.exit hp.toBooked.notifyAll w
    · split
      · exact hp.exit w
      · rename_i idle hidle
        have hsize : idle.size = p.idle.size + 1 := by
          unfold IdleList.size
          rw [IdleList.items_of_insert? hidle, List.length_append, List.length_singleton]
        have hmore : Owes us (n + 1) ({ p with idle := idle } : Pool υ) := by
          refine hp.change rfl rfl rfl rfl fun _ => ?_
          simp only [openings]
          omega
        exact Owes.notifyOne (Owes.of_front (front_setPhase ..).symm hmore)

theorem Owes.crash {n : Nat} (hp : Owes us n p) (w : WorkerId) (payload : Payload) :
    Owes us n (p.crash w payload) := by
  unfold Pool.crash
  refine Owes.exit (Owes.of_front ?_ hp) w
  split <;> simp

theorem Owes.killWorker {n : Nat} (hp : Owes us n p) (w : WorkerId) :
    Owes us n (p.killWorker w) := by
  have hremoved : Owes us n (p.removeWorker w) := Owes.of_front (front_removeWorker ..).symm hp
  unfold Pool.killWorker
  split
  · exact hp
  · split
    · exact hremoved
    · exact hremoved.freeSlot

theorem Owes.purge {n : Nat} (hp : Owes us n p) (now : Nat) : Owes us n (p.purge now) := by
  have hless : Owes us n
      ({ p with idle := (p.idle.expire p.options.expiryMillis now).2 } : Pool υ) := by
    refine hp.change rfl rfl rfl rfl fun _ => ?_
    have hsize := p.idle.size_expire_le p.options.expiryMillis now
    simp only [openings]
    omega
  have hstopped : ∀ (ws : List WorkerId) (q : Pool υ), Owes us n q → Owes us n (ws.foldl (fun q w =>
      (q.debug "Stopping idle worker." [workerField w]).send w .stop) q) := by
    intro ws
    induction ws with
    | nil => exact fun _ hq => hq
    | cons w ws ih =>
      intro q hq
      refine ih _ (Owes.of_front ?_ hq)
      simp
  have hwoken : ∀ q : Pool υ, Owes us n q →
      Owes us n (if q.running == 0 || (0 < q.waiting && 0 < q.free) then q.notifyAll else q) := by
    intro q hq
    split
    · exact hq.toBooked.notifyAll
    · exact hq
  unfold Pool.purge
  refine hwoken _ ?_
  split
  · exact hless
  · refine hstopped _ _ (Owes.of_front ?_ hless)
    rfl

theorem Owes.pollScavenger {n : Nat} (hp : Owes us n p) (s : ScavengerId) (now : Nat) :
    Owes us n (p.pollScavenger s now).1 := by
  unfold Pool.pollScavenger
  split
  · exact hp
  · split
    · exact hp
    · split
      · exact Owes.of_front (front_endScavenger ..).symm hp
      · split
        · exact hp
        · split
          · exact Owes.of_front (front_endScavenger ..).symm hp
          · exact Owes.purge (Owes.of_front (front_setScavenger ..).symm hp) now

/-! ## The owner -/

theorem Owes.tune {n : Nat} (hp : Owes us n p) (size : Int) : Owes us n (p.tune size) := by
  unfold Pool.tune
  split
  · exact hp
  · rename_i c hcap
    split
    · exact hp
    · have hwider : ∀ m : Nat, size ≤ c + m → Owes us (n + m)
          (({ p with capacity := some size.toNat } : Pool υ).debug "Worker pool resized."
            [p.nameField, ("from", .number c), ("to", .number size)]) := by
        intro m hm
        have hopen : Owes us (n + m) ({ p with capacity := some size.toNat } : Pool υ) := by
          refine hp.change rfl rfl rfl (by simp [hcap]) fun _ => ?_
          simp only [openings, hcap, Option.getD_some]
          omega
        exact Owes.of_front (front_debug ..).symm hopen
      dsimp only
      split
      · rename_i hle
        exact hwider 0 (by omega)
      · split
        · rename_i hone
          refine Owes.notifyOne (hwider 1 ?_)
          have : size - c = 1 := by simpa using hone
          omega
        · exact Booked.notifyAll (hwider (size - c).toNat (by omega)).toBooked

theorem Owes.close {n : Nat} (hp : Owes us n p) : Owes us n p.close := by
  unfold Pool.close
  split
  · exact hp
  · refine Booked.notifyAll ?_
    have hclosed : Booked us ({ p with closed := true, idle := p.idle.reset.2 } : Pool υ) :=
      ⟨hp.known, hp.nodup, hp.begun⟩
    exact hclosed.of_front (front_stopAll ..).symm

theorem Owes.takeScavenger {n : Nat} (hp : Owes us n p) : Owes us n p.takeScavenger.1 :=
  Owes.of_front (front_takeScavenger p).symm hp

theorem Owes.release {n : Nat} (hp : Owes us n p) : Owes us n p.release := by
  unfold Pool.release
  dsimp only
  split
  · exact hp.takeScavenger
  · exact Owes.of_front (front_debug ..).symm hp.takeScavenger.close

theorem Owes.beginRelease {n : Nat} (hp : Owes us n p) (now : Nat) (timeout : Duration) :
    Owes us n (p.beginRelease now timeout).1 := by
  unfold Pool.beginRelease
  dsimp only
  split
  · exact hp.takeScavenger
  · exact Owes.of_front (front_debug ..).symm hp.takeScavenger.close

/-- Nobody waits at a closed pool, so that nothing is owed when it is opened again. -/
theorem Owes.reboot {n : Nat} (hp : Owes us n p) (now : Nat) : Owes us n (p.reboot now) := by
  unfold Pool.reboot
  split
  · rename_i hclosed
    have hnobody := hp.closed hclosed
    have hopen : Owes us n ({ p with closed := false } : Pool υ) :=
      ⟨⟨hp.known, hp.nodup, hp.begun⟩, fun _ => hnobody, fun hw => absurd hnobody hw,
        fun hw => absurd hnobody hw⟩
    refine Owes.of_front ?_ hopen
    simp
  · exact hp

theorem Owes.drop {n : Nat} (hp : Owes us n p) : Owes us n p.drop := by
  have hreset : Owes us n ({ p.takeScavenger.1 with
      idle := p.takeScavenger.1.idle.reset.2, dropped := true } : Pool υ) := by
    refine hp.takeScavenger.change rfl rfl rfl rfl fun _ => ?_
    simp only [openings, IdleList.size, IdleList.items_reset, List.length_nil]
    omega
  refine Owes.of_front ?_ hreset
  simp [Pool.drop]

/-! ## Runs -/

theorem Owes.grow {n : Nat} {us' : List CallerId} (hp : Owes us n p) (h : us ⊆ us') :
    Owes us' n p :=
  ⟨⟨hp.known, hp.nodup, fun _ hc => h (hp.begun hc)⟩, hp.closed, hp.bounded, hp.balance⟩

/-- Whatever happens, no wake is owed afterwards. -/
theorem Owes.perform (hp : Owes us 0 p) {e : PoolEvent υ}
    (hnew : ∀ c, e.begins? = some c → c ∉ us) :
    Owes (us ++ e.begins?.toList) 0 (p.perform e).1 := by
  have hgrown : Owes (us ++ e.begins?.toList) 0 p := hp.grow (List.subset_append_left _ _)
  cases e with
  | submit c u =>
    have hc : c ∉ p.notifier.known := fun h => hnew c rfl (hp.begun h)
    have howes : Owes (us ++ [c]) 1 p :=
      hgrown.change rfl rfl rfl rfl fun _ => by omega
    exact howes.attempt (by simp) hc u
  | resume c => exact hgrown.resume c
  | abandon c => exact hgrown.abandon c
  | pollWorker w => exact hgrown.pollWorker w
  | complete w now => exact hgrown.complete w now
  | crash w payload => exact hgrown.crash w payload
  | killWorker w => exact hgrown.killWorker w
  | pollScavenger s now => exact hgrown.pollScavenger s now
  | killScavenger s => exact Owes.of_front (front_setScavenger ..).symm hgrown
  | tune size => exact hgrown.tune size
  | release => exact hgrown.release
  | beginRelease now timeout => exact hgrown.beginRelease now timeout
  | reboot now => exact hgrown.reboot now
  | drop => exact hgrown.drop

theorem exists_eq_create {capacity : Int} {options : PoolOptions} {now : Nat}
    (h : Pool.new capacity options now = .ok p) : ∃ c, p = create c options now := by
  unfold Pool.new at h
  dsimp only at h
  generalize (if capacity ≤ 0 then none else some capacity.toNat) = c at h
  split at h
  · contradiction
  · exact ⟨c, (Except.ok.inj h).symm⟩

theorem owes_create (c : Option Nat) (options : PoolOptions) (now : Nat) :
    Owes [] 0 (create c options now : Pool υ) := by
  refine Owes.of_front (front_debug ..).symm (Owes.of_front (front_startScavenger ..).symm ?_)
  exact ⟨⟨.refl _, List.nodup_nil, fun _ h => h⟩, fun _ => rfl, fun hw => absurd rfl hw,
    fun hw => absurd rfl hw⟩

theorem owes_of_run {h : List (Occurrence (Pool υ) (PoolEvent υ))}
    (hrun : (poolSystem υ).Run h p) : Owes (submitted h) 0 p := by
  induction hrun with
  | start hs =>
    obtain ⟨capacity, options, now, p₀, hnew, rfl⟩ := hs
    obtain ⟨c, rfl⟩ := exists_eq_create hnew
    exact Owes.of_front (front_collect _).symm (owes_create c options now)
  | @next h p e _ hall ih =>
    have hnew : ∀ c, e.begins? = some c → c ∉ submitted h := by
      intro c hc
      cases e with
      | submit d u =>
        obtain rfl := Option.some.inj hc
        have : p.dropped = false ∧ d ∉ submitted h := by
          simpa [poolSystem, Pool.allows] using hall
        exact this.2
      | _ => simp [PoolEvent.begins?] at hc
    have hsub : submitted (h ++ [⟨p, e⟩]) = submitted h ++ e.begins?.toList := by
      simp [submitted, List.filterMap_cons]
      cases e.begins? <;> rfl
    rw [hsub]
    exact Owes.of_front (front_collect _).symm (ih.perform hnew)

/-- Has everybody had a turn who was woken? Workers have one when they are created and for every
message. -/
def isQuiet (p : Pool υ) : Bool :=
  p.notifier.woken.isEmpty && p.workers.all fun x =>
    match x.phase with
    | .spawned _ => false
    | .busy _ => true
    | .parked => x.inbox.isEmpty

/-- Whatever has happened to a pool, callers that are still parked when nobody is left to be
polled could not be served: the pool is open and bounded, has no idle worker and is full. -/
theorem no_lost_wakeup {h : List (Occurrence (Pool υ) (PoolEvent υ))}
    (hrun : (poolSystem υ).Run h p) (hquiet : p.isQuiet = true) (hparked : p.callers ≠ []) :
    p.closed = false ∧ p.capacity.isSome = true ∧ p.idle.items = [] ∧ p.cap ≤ p.running := by
  have howes := owes_of_run hrun
  have hwoken : p.notifier.woken = [] := by
    simp only [isQuiet, Bool.and_eq_true, List.isEmpty_iff] at hquiet
    exact hquiet.1
  have hwaiting : p.notifier.waiting ≠ [] := by
    intro hnil
    have hknown : p.notifier.known = [] := by simp [Notifier.known, hnil, hwoken]
    have hperm := howes.known
    rw [hknown] at hperm
    exact hparked (List.map_eq_nil_iff.1 hperm.eq_nil)
  have hopen : p.openings ≤ 0 := by
    have h := howes.balance hwaiting
    simpa [Notifier.singles, hwoken] using h
  obtain ⟨c, hcap⟩ := Option.isSome_iff_exists.1 (howes.bounded hwaiting)
  simp only [openings, hcap, Option.getD_some] at hopen
  refine ⟨?_, howes.bounded hwaiting, ?_, ?_⟩
  · exact Bool.eq_false_iff.2 fun hclosed => hwaiting (howes.closed hclosed)
  · exact List.length_eq_zero_iff.1 (by unfold IdleList.size at hopen; omega)
  · simp only [cap, hcap]
    omega

/-- Capacity one, and one worker busy: a caller parks, is woken for a second slot that a newcomer
takes first, and parks again. -/
theorem no_lost_wakeup_overtaken : ∃ (h : List (Occurrence (Pool Nat) (PoolEvent Nat)))
    (p : Pool Nat), (poolSystem Nat).Run h p ∧ p.isQuiet = true ∧ p.callers ≠ [] ∧
      p.closed = false ∧ p.capacity.isSome = true ∧ p.idle.items = [] ∧ p.cap ≤ p.running := by
  have hstart : (poolSystem Nat).starts (Pool.create (some 1) {} 0).collect.2 :=
    ⟨1, {}, 0, _, rfl, rfl⟩
  obtain ⟨h, p, hrun, hcheck⟩ := System.exists_run_of_replay hstart
    [.submit 0 10, .pollWorker 0, .submit 1 11, .tune 2, .submit 2 12, .resume 1, .pollWorker 1,
      .submit 3 13, .abandon 3]
    (fun _ p => p.isQuiet && !p.callers.isEmpty) (by decide)
  simp only [Bool.and_eq_true, Bool.not_eq_true', List.isEmpty_eq_false_iff] at hcheck
  exact ⟨h, p, hrun, hcheck.1, hcheck.2, no_lost_wakeup hrun hcheck.1 hcheck.2⟩

end Pool

end Overseer
