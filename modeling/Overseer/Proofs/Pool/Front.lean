import Overseer.Proofs.Pool.Events

/-!
# What callers see of a pool

A notifier as the list of the callers that it knows (`Notifier.known`), with the number of those
that were woken alone (`Notifier.singles`), and what each of its operations does to both. The
`front` of a pool is all that matters to callers: what workers and scavengers do among themselves
and what is reported to the outside leaves it as it is.
-/

namespace Overseer

/-! ## Notifiers -/

namespace Notifier

/-- The callers that a notifier knows. -/
def known (n : Notifier) : List CallerId := n.waiting ++ n.woken.map Prod.fst

/-- The number of callers that were woken alone. -/
def singles (n : Notifier) : Nat := n.woken.countP fun w => w.2 == .single

theorem known_one (n : Notifier) : n.one.1.known.Perm n.known := by
  unfold one known
  cases n.waiting with
  | nil => exact .refl _
  | cons c rest =>
    simp only [List.map_append, List.map_cons, List.map_nil, List.cons_append]
    rw [← List.append_assoc]
    exact List.perm_append_singleton c (rest ++ n.woken.map Prod.fst)

@[simp] theorem waiting_one (n : Notifier) : n.one.1.waiting = n.waiting.tail := by
  unfold one
  split <;> simp_all

theorem singles_one {n : Notifier} (h : n.waiting ≠ []) : n.one.1.singles = n.singles + 1 := by
  unfold one singles
  split
  · contradiction
  · simp

theorem known_all (n : Notifier) : n.all.1.known.Perm n.known := by
  have hids : (n.waiting.map fun c => (c, Wake.shared)).map Prod.fst = n.waiting := by
    simp [Function.comp_def]
  simp only [all, known, List.map_append, hids, List.nil_append]
  exact List.perm_append_comm

theorem known_park (n : Notifier) (c : CallerId) : (n.park c).known.Perm (c :: n.known) := by
  simp only [park, known, List.append_assoc, List.singleton_append]
  exact List.perm_middle

/-- A notifier that has forgotten a caller knows the others. -/
theorem known_filter (n : Notifier) (c : CallerId) :
    ({ n with waiting := n.waiting.filter (· != c),
              woken := n.woken.filter fun w => w.1 != c } : Notifier).known =
      n.known.filter (· != c) := by
  simp only [known, List.filter_append, List.filter_map, Function.comp_def]

/-- A woken caller does not wait. -/
theorem filter_waiting {n : Notifier} {c : CallerId} (h : n.known.Nodup)
    (hc : n.isWoken c = true) : n.waiting.filter (· != c) = n.waiting := by
  refine List.filter_eq_self.2 fun d hd => ?_
  have hw : c ∈ n.woken.map Prod.fst := by simpa [isWoken] using hc
  have hne : d ≠ c := List.nodup_append.1 h |>.2.2 d hd c hw
  simpa using hne

/-- Forgetting one caller forgets at most one entry. -/
theorem countP_le_filter {ws : List (CallerId × Wake)} (c : CallerId)
    (h : (ws.map Prod.fst).Nodup) : ws.countP (fun w => w.2 == .single) ≤
      (ws.filter fun w => w.1 != c).countP (fun w => w.2 == .single) + 1 := by
  induction ws with
  | nil => simp
  | cons w ws ih =>
    obtain ⟨hw, hws⟩ := List.nodup_cons.1 h
    by_cases hc : w.1 = c
    · have hrest : ws.filter (fun x => x.1 != c) = ws := by
        refine List.filter_eq_self.2 fun x hx => ?_
        have hne : x.1 ≠ c := fun hxc => hw (hc ▸ hxc ▸ List.mem_map_of_mem (f := Prod.fst) hx)
        simpa using hne
      rw [List.filter_cons_of_neg (by simpa using hc), hrest, List.countP_cons]
      split <;> omega
    · rw [List.filter_cons_of_pos (by simpa using hc), List.countP_cons, List.countP_cons]
      have := ih hws
      omega

/-- A caller was woken at most once. -/
theorem singles_le_filter {n : Notifier} (c : CallerId) (h : n.known.Nodup) :
    n.singles ≤ (n.woken.filter fun w => w.1 != c).countP (fun w => w.2 == .single) + 1 :=
  countP_le_filter c (List.nodup_append.1 h).2.1

end Notifier

namespace Pool

variable {υ : Type}

/-! ## What callers see of a pool -/

/-- A pool as callers see it: without what workers, scavengers and the outside know. -/
def front (p : Pool υ) : Pool υ :=
  { p with
    scavenger := none, nextWorker := 0, nextScavenger := 0, tally := {}, workers := []
    scavengers := [], notices := [] }

@[simp] theorem front_debug (p : Pool υ) (m : String) (fs : List (String × Field)) :
    (p.debug m fs).front = p.front := rfl

@[simp] theorem front_setPhase (p : Pool υ) (w : WorkerId) (x : WorkerPhase υ)
    (inbox : List (Message υ)) : (p.setPhase w x inbox).front = p.front := rfl

@[simp] theorem front_removeWorker (p : Pool υ) (w : WorkerId) :
    (p.removeWorker w).front = p.front := rfl

@[simp] theorem front_send (p : Pool υ) (w : WorkerId) (m : Message υ) :
    (p.send w m).front = p.front := by
  unfold send
  split <;> rfl

@[simp] theorem front_stopAll (p : Pool υ) (ws : List WorkerId) :
    (p.stopAll ws).front = p.front := by
  unfold stopAll
  induction ws generalizing p with
  | nil => rfl
  | cons w ws ih => rw [List.foldl_cons, ih, front_send]

@[simp] theorem front_discard (p : Pool υ) (ws : List WorkerId) :
    (p.discard ws).front = p.front := by
  unfold discard
  induction ws generalizing p with
  | nil => rfl
  | cons w ws ih => rw [List.foldl_cons, ih, front_debug]

@[simp] theorem front_reject (p : Pool υ) : p.reject.front = p.front := rfl

@[simp] theorem front_reportPanic (p : Pool υ) (w : WorkerId) (payload : Payload) :
    (p.reportPanic w payload).front = p.front := by
  unfold reportPanic
  dsimp only
  split <;> rfl

@[simp] theorem front_setScavenger (p : Pool υ) (s : ScavengerId) (f : Scavenger → Scavenger) :
    (p.setScavenger s f).front = p.front := rfl

@[simp] theorem front_takeScavenger (p : Pool υ) : p.takeScavenger.1.front = p.front := by
  unfold takeScavenger
  split <;> rfl

@[simp] theorem front_startScavenger (p : Pool υ) (now : Nat) :
    (p.startScavenger now).front = p.front := by
  unfold startScavenger
  split
  · rfl
  · exact front_takeScavenger p

@[simp] theorem front_endScavenger (p : Pool υ) (s : ScavengerId) :
    (p.endScavenger s).front = p.front := rfl

@[simp] theorem front_collect (p : Pool υ) : p.collect.2.front = p.front := rfl

end Pool

end Overseer
