import Mathlib.Data.List.TakeWhile
import Overseer.Proofs.Pool.Steps

/-!
# Who comes to a pool

The `lobby` of a pool is what decides whether a call is served, refused or told to wait, less the
workers and slots: the options and whether there is a capacity, the flag of a closed pool, the
list of idle workers, the scavenger, and the callers that are parked with their count. Most of
what workers and the outside do leaves it as it is, and each event that does not changes a part of
it that can be named.
-/

namespace Overseer

/-- Nobody is handed out exactly if nobody who is listed is live. -/
theorem IdleList.detachLive_eq_none_iff {α : Type} {l : IdleList α} {live : α → Bool} :
    (l.detachLive live).2.1 = none ↔ l.listed.filter live = [] := by
  have hdead : (l.inOrder.dropWhile fun x => !live x.1) = [] ↔ l.listed.filter live = [] := by
    simp only [List.dropWhile_eq_nil_iff, Bool.not_eq_true', List.filter_eq_nil_iff,
      Bool.not_eq_true, ← l.map_inOrder_perm.mem_iff, List.forall_mem_map]
  rw [← hdead]
  unfold detachLive
  split
  · rename_i hnil
    simp only [hnil]
  · rename_i hlive
    simp [hlive]

namespace Pool

variable {υ : Type} {p q : Pool υ}

/-- A pool without its workers, its slots and the order in which callers are woken. -/
def lobby (p : Pool υ) : Pool υ :=
  { p with
    capacity := p.capacity.map fun _ => 0
    running := 0, dropped := false, notifier := {}, nextWorker := 0, nextScavenger := 0
    tally := {}, workers := [], scavengers := [], notices := [] }

@[simp] theorem lobby_debug (p : Pool υ) (m : String) (fs : List (String × Field)) :
    (p.debug m fs).lobby = p.lobby := rfl

@[simp] theorem lobby_notifyOne (p : Pool υ) : p.notifyOne.lobby = p.lobby := by
  unfold notifyOne
  dsimp only
  split <;> rfl

@[simp] theorem lobby_notifyAll (p : Pool υ) : p.notifyAll.lobby = p.lobby := rfl

@[simp] theorem lobby_setPhase (p : Pool υ) (w : WorkerId) (x : WorkerPhase υ)
    (inbox : List (Message υ)) : (p.setPhase w x inbox).lobby = p.lobby := rfl

@[simp] theorem lobby_removeWorker (p : Pool υ) (w : WorkerId) :
    (p.removeWorker w).lobby = p.lobby := rfl

@[simp] theorem lobby_send (p : Pool υ) (w : WorkerId) (m : Message υ) :
    (p.send w m).lobby = p.lobby := by
  unfold send
  split <;> rfl

@[simp] theorem lobby_spawn (p : Pool υ) (u : υ) : (p.spawn u).lobby = p.lobby := rfl

@[simp] theorem lobby_reject (p : Pool υ) : p.reject.lobby = p.lobby := rfl

@[simp] theorem lobby_reportPanic (p : Pool υ) (w : WorkerId) (payload : Payload) :
    (p.reportPanic w payload).lobby = p.lobby := by
  unfold reportPanic
  dsimp only
  split <;> rfl

@[simp] theorem lobby_setScavenger (p : Pool υ) (s : ScavengerId) (f : Scavenger → Scavenger) :
    (p.setScavenger s f).lobby = p.lobby := rfl

@[simp] theorem lobby_collect (p : Pool υ) : p.collect.2.lobby = p.lobby := rfl

/-- What leaves the lobby as it is does so however often it is done. -/
theorem lobby_foldl {g : Pool υ → WorkerId → Pool υ} (hg : ∀ p w, (g p w).lobby = p.lobby)
    (ws : List WorkerId) (p : Pool υ) : (ws.foldl g p).lobby = p.lobby := by
  induction ws generalizing p with
  | nil => rfl
  | cons w ws ih => rw [List.foldl_cons, ih, hg]

@[simp] theorem lobby_stopAll (p : Pool υ) (ws : List WorkerId) :
    (p.stopAll ws).lobby = p.lobby :=
  lobby_foldl (fun p w => lobby_send p w .stop) ws p

@[simp] theorem lobby_discard (p : Pool υ) (ws : List WorkerId) :
    (p.discard ws).lobby = p.lobby :=
  lobby_foldl (fun p w => lobby_debug p "Discarding dead idle worker." [workerField w]) ws p

@[simp] theorem lobby_freeSlot (p : Pool υ) : p.freeSlot.lobby = p.lobby := by
  unfold freeSlot
  split
  · rfl
  · rw [lobby_notifyOne]
    rfl

@[simp] theorem lobby_exit (p : Pool υ) (w : WorkerId) : (p.exit w).lobby = p.lobby := by
  unfold exit
  rw [lobby_freeSlot, lobby_removeWorker, lobby_debug]

@[simp] theorem lobby_pollWorker (p : Pool υ) (w : WorkerId) :
    (p.pollWorker w).1.lobby = p.lobby := by
  unfold pollWorker
  split
  · rfl
  · split
    · rfl
    · rfl
    · exact lobby_exit p w
    · rfl
    · rfl

@[simp] theorem lobby_crash (p : Pool υ) (w : WorkerId) (payload : Payload) :
    (p.crash w payload).lobby = p.lobby := by
  unfold crash
  rw [lobby_exit]
  split
  · rfl
  · exact lobby_reportPanic p w payload

@[simp] theorem lobby_killWorker (p : Pool υ) (w : WorkerId) :
    (p.killWorker w).lobby = p.lobby := by
  unfold killWorker
  split
  · rfl
  · split
    · rfl
    · rw [lobby_freeSlot, lobby_removeWorker]

/-- A pool stays bounded or unbounded. -/
@[simp] theorem lobby_tune (p : Pool υ) (size : Int) : (p.tune size).lobby = p.lobby := by
  unfold tune
  split
  · rfl
  · rename_i c hcap
    have hresized : ({ p with capacity := some size.toNat } : Pool υ).lobby = p.lobby := by
      simp [lobby, hcap]
    split
    · rfl
    · dsimp only
      split
      · rw [lobby_debug, hresized]
      · split
        · rw [lobby_notifyOne, lobby_debug, hresized]
        · rw [lobby_notifyAll, lobby_debug, hresized]

/-! ## Events that change the lobby -/

/-- An open pool takes back a worker that has ended its unit. -/
theorem lobby_complete (p : Pool υ) (w : WorkerId) (now : Nat) :
    (p.complete w now).lobby = p.lobby ∨ p.closed = false ∧
      ∃ idle, (p.complete w now).lobby = ({ p with idle := idle } : Pool υ).lobby := by
  unfold complete
  split
  · exact .inl (lobby_exit p w)
  · split
    · rw [lobby_exit, lobby_notifyAll]
      exact .inl rfl
    · rename_i hkept
      have hopen : p.closed = false := by
        simp only [Bool.or_eq_true, not_or, Bool.not_eq_true] at hkept
        exact hkept.2
      split
      · exact .inl (lobby_exit p w)
      · rename_i idle _
        rw [lobby_notifyOne, lobby_setPhase]
        exact .inr ⟨hopen, idle, rfl⟩

theorem lobby_purge (p : Pool υ) (now : Nat) : (p.purge now).lobby =
    ({ p with idle := (p.idle.expire p.options.expiryMillis now).2 } : Pool υ).lobby := by
  have hwoken : ∀ q : Pool υ,
      (if q.running == 0 || (0 < q.waiting && 0 < q.free) then q.notifyAll else q).lobby =
        q.lobby := by
    intro q
    split
    · exact lobby_notifyAll q
    · rfl
  unfold purge
  dsimp only
  rw [hwoken]
  split
  · rfl
  · rw [lobby_foldl fun q w => by simp]
    rfl

/-- A scavenger evicts nobody from a closed pool. -/
theorem lobby_pollScavenger (p : Pool υ) (s : ScavengerId) (now : Nat) :
    (p.pollScavenger s now).1.lobby = p.lobby ∨ p.closed = false ∧
      ∃ idle, (p.pollScavenger s now).1.lobby = ({ p with idle := idle } : Pool υ).lobby := by
  unfold pollScavenger
  split
  · exact .inl rfl
  · split
    · exact .inl rfl
    · split
      · exact .inl rfl
      · split
        · exact .inl rfl
        · split
          · exact .inl rfl
          · rename_i hkept
            simp only [Bool.or_eq_true, not_or, Bool.not_eq_true] at hkept
            exact .inr ⟨hkept.2, _, (lobby_purge _ now).trans rfl⟩

theorem takeScavenger_eq (p : Pool υ) : ∃ scavengers notices, p.takeScavenger.1 =
    { p with scavenger := none, scavengers := scavengers, notices := notices } := by
  unfold takeScavenger
  split
  · rename_i hnone
    exact ⟨p.scavengers, p.notices, by rw [← hnone]⟩
  · exact ⟨_, _, rfl⟩

theorem lobby_startScavenger (p : Pool υ) (now : Nat) :
    ∃ s, (p.startScavenger now).lobby = ({ p with scavenger := s } : Pool υ).lobby := by
  obtain ⟨scavengers, notices, htaken⟩ := takeScavenger_eq p
  unfold startScavenger
  split
  · exact ⟨p.scavenger, rfl⟩
  · dsimp only
    rw [htaken]
    exact ⟨_, rfl⟩

/-- A new pool is open, and nobody has come. -/
theorem lobby_of_start (hs : (poolSystem υ).starts p) :
    ∃ options capacity idle s, p.lobby = ({
      options := options, capacity := capacity, idle := idle, scavenger := s } : Pool υ).lobby := by
  obtain ⟨_, options, now, p₀, hnew, rfl⟩ := hs
  obtain ⟨c, rfl⟩ := exists_eq_create hnew
  rw [lobby_collect, create, lobby_debug]
  obtain ⟨s, hs⟩ := lobby_startScavenger ({
    options := options.normalized
    capacity := c
    idle := { discipline :=
      if options.normalized.prealloc then .ring (c.getD 0) else .stack } } : Pool υ) now
  exact ⟨_, _, _, s, hs⟩

/-- A pool is closed without anybody on its list. -/
theorem lobby_close (hopen : p.closed = false) : p.close.lobby =
    ({ p with closed := true, idle := p.idle.reset.2 } : Pool υ).lobby := by
  unfold close
  rw [hopen, if_neg (by simp)]
  dsimp only
  rw [lobby_notifyAll, lobby_stopAll]

/-- A release stops the scavenger, and closes the pool if it is open. -/
theorem lobby_release (p : Pool υ) : p.release.lobby =
    ({ p with scavenger := none, closed := true
              idle := if p.closed then p.idle else p.idle.reset.2 } : Pool υ).lobby := by
  obtain ⟨scavengers, notices, htaken⟩ := takeScavenger_eq p
  unfold release
  dsimp only
  rw [htaken]
  cases hclosed : p.closed with
  | true => simp [lobby]
  | false =>
    simp only [Bool.false_eq_true, if_false, lobby_debug]
    exact lobby_close rfl

/-- A release with a deadline stops the scavenger, and if it does not fail, it closes the pool,
which was open. -/
theorem lobby_beginRelease (p : Pool υ) (now : Nat) (timeout : Duration) :
    (p.beginRelease now timeout).2 = .error .closed ∧
      (p.beginRelease now timeout).1.lobby = ({ p with scavenger := none } : Pool υ).lobby ∨
    (∃ wait, (p.beginRelease now timeout).2 = .ok wait) ∧ p.closed = false ∧
      (p.beginRelease now timeout).1.lobby = ({ p with
        scavenger := none, closed := true, idle := p.idle.reset.2 } : Pool υ).lobby := by
  obtain ⟨scavengers, notices, htaken⟩ := takeScavenger_eq p
  unfold beginRelease
  dsimp only
  rw [htaken]
  split
  · exact .inl ⟨rfl, rfl⟩
  · rename_i hopen
    simp only [Bool.or_eq_true, not_or, Bool.not_eq_true] at hopen
    rw [lobby_debug]
    exact .inr ⟨⟨_, rfl⟩, hopen.1, lobby_close hopen.1⟩

theorem lobby_reboot (p : Pool υ) (now : Nat) :
    ∃ s, (p.reboot now).lobby = ({ p with closed := false, scavenger := s } : Pool υ).lobby := by
  unfold reboot
  split
  · obtain ⟨s, hs⟩ := lobby_startScavenger ({ p with closed := false } : Pool υ) now
    rw [lobby_debug]
    exact ⟨s, hs⟩
  · rename_i hopen
    refine ⟨p.scavenger, ?_⟩
    simp only [Bool.not_eq_true] at hopen
    rw [← hopen]

theorem lobby_drop (p : Pool υ) : p.drop.lobby =
    ({ p with scavenger := none, idle := p.idle.reset.2 } : Pool υ).lobby := by
  obtain ⟨scavengers, notices, htaken⟩ := takeScavenger_eq p
  unfold drop
  dsimp only
  rw [htaken, lobby_stopAll]
  rfl

/-! ## Events at which no caller has a turn -/

/-- The releases that close a pool: any, except one with a deadline that fails. -/
def Releases (p : Pool υ) (e : PoolEvent υ) : Prop :=
  e = .release ∨ ∃ now timeout wait,
    e = .beginRelease now timeout ∧ (p.beginRelease now timeout).2 = .ok wait

/-- How an event changes the lobby in which no caller has a turn. Only a release closes a pool,
with or without a deadline, and only a reboot opens it. -/
inductive Arranges (p : Pool υ) (e : PoolEvent υ) (q : Pool υ) : Prop
  | keeps {idle : IdleList WorkerId} {scavenger : Option ScavengerId} :
      (p.closed = true → idle = p.idle ∨ idle.items = []) →
      scavenger = p.scavenger ∨ scavenger = none →
      q.lobby = ({ p with idle := idle, scavenger := scavenger } : Pool υ).lobby → Arranges p e q
  | closes {idle : IdleList WorkerId} : p.Releases e →
      (p.closed = true ∧ idle = p.idle ∨ idle.items = []) →
      q.lobby = ({ p with closed := true, idle := idle, scavenger := none } : Pool υ).lobby →
      Arranges p e q
  | opens {now : Nat} {scavenger : Option ScavengerId} : e = .reboot now →
      q.lobby = ({ p with closed := false, scavenger := scavenger } : Pool υ).lobby →
      Arranges p e q

theorem arranges_perform (p : Pool υ) {e : PoolEvent υ} (hsubmit : ∀ c u, e ≠ .submit c u)
    (hresume : ∀ c, e ≠ .resume c) (habandon : ∀ c, e ≠ .abandon c) :
    p.Arranges e (p.perform e).1 := by
  have hsame : ∀ {e : PoolEvent υ} {q : Pool υ}, q.lobby = p.lobby → p.Arranges e q :=
    .keeps (fun _ => .inl rfl) (.inl rfl)
  have hopen : ∀ {e : PoolEvent υ} {q : Pool υ} {idle : IdleList WorkerId}, p.closed = false →
      q.lobby = ({ p with idle := idle } : Pool υ).lobby → p.Arranges e q := fun hopen =>
    .keeps (fun hclosed => by simp [hopen] at hclosed) (.inl rfl)
  cases e with
  | submit c u => exact absurd rfl (hsubmit c u)
  | resume c => exact absurd rfl (hresume c)
  | abandon c => exact absurd rfl (habandon c)
  | pollWorker w => exact hsame (lobby_pollWorker p w)
  | complete w now =>
    rcases lobby_complete p w now with hkept | ⟨hclosed, idle, hlisted⟩
    · exact hsame hkept
    · exact hopen hclosed hlisted
  | crash w payload => exact hsame (lobby_crash p w payload)
  | killWorker w => exact hsame (lobby_killWorker p w)
  | pollScavenger s now =>
    rcases lobby_pollScavenger p s now with hkept | ⟨hclosed, idle, hlisted⟩
    · exact hsame hkept
    · exact hopen hclosed hlisted
  | killScavenger s => exact hsame (lobby_setScavenger p s _)
  | tune size => exact hsame (lobby_tune p size)
  | release =>
    refine .closes (.inl rfl) ?_ (lobby_release p)
    cases p.closed with
    | true => exact .inl ⟨rfl, rfl⟩
    | false => exact .inr rfl
  | beginRelease now timeout =>
    rcases lobby_beginRelease p now timeout with ⟨-, hfailed⟩ | ⟨⟨wait, hwait⟩, -, hclosed⟩
    · exact .keeps (fun _ => .inl rfl) (.inr rfl) hfailed
    · exact .closes (.inr ⟨now, timeout, wait, rfl, hwait⟩) (.inr rfl) hclosed
  | reboot now =>
    obtain ⟨s, hopened⟩ := lobby_reboot p now
    exact .opens rfl hopened
  | drop => exact .keeps (fun _ => .inr rfl) (.inr rfl) (lobby_drop p)

/-! ## Callers -/

/-- Is an open pool at its limit? Nobody who is listed as idle is alive, every slot is taken, and
no more callers may wait. -/
structure IsOverloaded (p : Pool υ) : Prop where
  opened : p.closed = false
  bounded : p.capacity.isSome = true
  nobody : p.idle.listed.filter p.isAlive = []
  full : p.cap ≤ p.running
  turned : p.options.nonblocking = true ∨
    p.options.maxBlocking ≠ 0 ∧ p.options.maxBlocking ≤ p.waiting

theorem hasRoom_eq_false_iff :
    p.hasRoom = false ↔ p.capacity.isSome = true ∧ p.cap ≤ p.running := by
  unfold hasRoom cap
  cases p.capacity with
  | none => simp
  | some c => simp

theorem mayWait_eq_false_iff : p.mayWait = false ↔ p.options.nonblocking = true ∨
    p.options.maxBlocking ≠ 0 ∧ p.options.maxBlocking ≤ p.waiting := by
  unfold mayWait
  cases p.options.nonblocking <;> simp

/-- How a caller with a unit is met, and the lobby that it leaves. -/
inductive Meets (p : Pool υ) (c : CallerId) (u : υ) (q : Pool υ) : Submission → Prop
  | shut : p.closed = true → q.lobby = p.lobby → Meets p c u q (.refused .closed)
  | serves {idle : IdleList WorkerId} : p.closed = false →
      p.idle.listed.filter p.isAlive ≠ [] ∨ p.hasRoom = true →
      q.lobby = ({ p with idle := idle } : Pool υ).lobby → Meets p c u q .accepted
  | waits {idle : IdleList WorkerId} : p.closed = false → p.hasRoom = false → p.mayWait = true →
      q.lobby = ({ p with
        idle := idle, waiting := p.waiting + 1, callers := p.callers ++ [⟨c, u⟩] } : Pool υ).lobby →
      Meets p c u q .parked
  | turnsAway {idle : IdleList WorkerId} : p.IsOverloaded →
      q.lobby = ({ p with idle := idle } : Pool υ).lobby → Meets p c u q (.refused .overload)

theorem meets_attempt (p : Pool υ) (c : CallerId) (u : υ) :
    p.Meets c u (p.attempt c u).1 (p.attempt c u).2 := by
  have hnone : (p.idle.detachLive p.isAlive).2.1 = none ↔ p.idle.listed.filter p.isAlive = [] :=
    IdleList.detachLive_eq_none_iff
  unfold attempt
  split
  · rename_i hclosed
    exact .shut hclosed rfl
  · rename_i hopen
    have hopen : p.closed = false := by simpa using hopen
    split
    · rename_i dead w rest hd
      refine .serves hopen (.inl fun hnil => ?_) ((lobby_send ..).trans (lobby_discard ..))
      rw [hd] at hnone
      exact absurd (hnone.2 hnil) (by simp)
    · rename_i dead rest hd
      have hnobody : p.idle.listed.filter p.isAlive = [] := hnone.1 (by rw [hd])
      have hlobby := lobby_discard ({ p with idle := rest } : Pool υ) dead
      have hfront := front_discard ({ p with idle := rest } : Pool υ) dead
      generalize ({ p with idle := rest } : Pool υ).discard dead = q at hlobby hfront
      have hroom : q.hasRoom = p.hasRoom := by
        have hsame := congrArg hasRoom hfront
        exact hsame
      have hwait : q.mayWait = p.mayWait := by
        have hsame := congrArg mayWait hfront
        exact hsame
      dsimp only
      rw [hroom, hwait]
      split
      · rename_i hfree
        exact .serves hopen (.inr hfree) ((lobby_spawn q u).trans hlobby)
      · rename_i hfull
        have hfull : p.hasRoom = false := by simpa using hfull
        split
        · rename_i hmay
          have hparked : (q.park c u).lobby = ({ p with
              idle := rest, waiting := p.waiting + 1,
              callers := p.callers ++ [⟨c, u⟩] } : Pool υ).lobby := by
            simp only [lobby, Pool.mk.injEq] at hlobby
            simp_all [park, lobby]
          exact .waits hopen hfull hmay hparked
        · rename_i hmay
          obtain ⟨hbounded, hcap⟩ := hasRoom_eq_false_iff.1 hfull
          exact .turnsAway ⟨hopen, hbounded, hnobody, hcap,
            mayWait_eq_false_iff.1 (by simpa using hmay)⟩ ((lobby_reject q).trans hlobby)

/-- A newcomer is refused for lack of room exactly at the limit. -/
theorem overload_iff {c : CallerId} {u : υ} :
    (p.attempt c u).2 = .refused .overload ↔ p.IsOverloaded := by
  have hmeets := meets_attempt p c u
  generalize (p.attempt c u).2 = r at hmeets
  constructor
  · rintro rfl
    cases hmeets with
    | turnsAway hover => exact hover
  · intro hover
    have hfull := hasRoom_eq_false_iff.2 ⟨hover.bounded, hover.full⟩
    have hmay := mayWait_eq_false_iff.2 hover.turned
    cases hmeets with
    | shut hclosed => simp [hover.opened] at hclosed
    | serves _ hserved =>
      rcases hserved with hlive | hroom
      · exact absurd hover.nobody hlive
      · simp [hfull] at hroom
    | waits _ _ hwait => simp [hmay] at hwait
    | turnsAway _ => rfl

end Pool

end Overseer
