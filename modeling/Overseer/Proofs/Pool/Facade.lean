import Overseer.Proofs.Pool.Patrol

/-!
# What the owner of a pool sees

The `facade` of a pool is all of it but its workers: who they are, what each of them does, which of
them are idle, and in which order they are reused. What an event does to it depends on the facade
alone, and on what the worker does that the event is about: whether somebody is idle, say, but not
who. The answers depend on no more than that either.
-/

namespace Overseer

namespace Pool

variable {υ : Type} {p q : Pool υ}

/-- A pool without its workers, as if idle ones were kept on a stack. -/
def facade (p : Pool υ) : Pool υ :=
  { p with
    options := { p.options with prealloc := false }
    idle := { discipline := .stack }, workers := [], notices := [] }

@[simp] theorem facade_debug (p : Pool υ) (m : String) (fs : List (String × Field)) :
    (p.debug m fs).facade = p.facade := rfl

@[simp] theorem facade_setPhase (p : Pool υ) (w : WorkerId) (x : WorkerPhase υ)
    (inbox : List (Message υ)) : (p.setPhase w x inbox).facade = p.facade := rfl

@[simp] theorem facade_removeWorker (p : Pool υ) (w : WorkerId) :
    (p.removeWorker w).facade = p.facade := rfl

@[simp] theorem facade_send (p : Pool υ) (w : WorkerId) (m : Message υ) :
    (p.send w m).facade = p.facade := by
  unfold send
  split <;> rfl

/-- What leaves the facade as it is does so however often it is done. -/
theorem facade_foldl {g : Pool υ → WorkerId → Pool υ} (hg : ∀ p w, (g p w).facade = p.facade)
    (ws : List WorkerId) (p : Pool υ) : (ws.foldl g p).facade = p.facade := by
  induction ws generalizing p with
  | nil => rfl
  | cons w ws ih => rw [List.foldl_cons, ih, hg]

@[simp] theorem facade_stopAll (p : Pool υ) (ws : List WorkerId) :
    (p.stopAll ws).facade = p.facade :=
  facade_foldl (fun p w => facade_send p w .stop) ws p

@[simp] theorem facade_discard (p : Pool υ) (ws : List WorkerId) :
    (p.discard ws).facade = p.facade :=
  facade_foldl (fun p w => facade_debug p "Discarding dead idle worker." [workerField w]) ws p

/-! ## What depends on the facade alone -/

theorem facade_notifyOne (p : Pool υ) : p.notifyOne.facade = p.facade.notifyOne.facade := by
  unfold notifyOne
  dsimp only [facade]
  split <;> rfl

theorem facade_notifyAll (p : Pool υ) : p.notifyAll.facade = p.facade.notifyAll.facade := rfl

theorem facade_freeSlot (p : Pool υ) : p.freeSlot.facade = p.facade.freeSlot.facade := by
  unfold freeSlot
  have hdropped : p.facade.dropped = p.dropped := rfl
  rw [hdropped]
  split
  · rfl
  · rw [facade_notifyOne]
    rfl

theorem facade_exit (p : Pool υ) (w : WorkerId) : (p.exit w).facade = p.facade.freeSlot.facade := by
  unfold exit
  rw [facade_freeSlot, facade_removeWorker, facade_debug]

theorem facade_unpark (p : Pool υ) (c : CallerId) :
    (p.unpark c).facade = (p.facade.unpark c).facade := rfl

theorem facade_abandon (p : Pool υ) (c : CallerId) :
    (p.abandon c).facade = (p.facade.abandon c).facade := by
  unfold abandon
  have hcallers : p.facade.callers = p.callers := rfl
  rw [hcallers]
  split <;> rfl

theorem facade_crash (p : Pool υ) (w v : WorkerId) (payload : Payload) :
    (p.crash w payload).facade = (p.facade.crash v payload).facade := by
  have hreported : (p.reportPanic w payload).facade =
      (p.facade.reportPanic v payload).facade := by
    unfold reportPanic
    have hhandler : p.facade.options.panicHandler = p.options.panicHandler := rfl
    dsimp only
    rw [hhandler]
    split <;> rfl
  unfold crash
  have hdropped : p.facade.dropped = p.dropped := rfl
  rw [facade_exit, facade_exit, hdropped]
  split
  · rfl
  · rw [hreported]

/-- A worker that has ended its unit, and for which the list has room. -/
theorem facade_complete {w : WorkerId} {now : Nat} (hroom : p.idle.insert? w now ≠ none)
    (v : WorkerId) : (p.complete w now).facade = (p.facade.complete v now).facade := by
  have hshut : p.facade.isOverCapacity = p.isOverCapacity ∧ p.facade.closed = p.closed ∧
      p.facade.dropped = p.dropped := ⟨rfl, rfl, rfl⟩
  unfold complete
  rw [hshut.1, hshut.2.1, hshut.2.2]
  split
  · exact (facade_exit p w).trans (facade_exit p.facade v).symm
  · split
    · rw [facade_exit, facade_exit]
      rfl
    · split
      · rename_i hfull
        exact absurd hfull hroom
      · -- a stack has room for everybody
        have hstack : p.facade.idle.insert? v now =
            some { discipline := .stack, items := [(v, now)] } := rfl
        rw [hstack]
        dsimp only
        rw [facade_notifyOne, facade_setPhase, facade_notifyOne (setPhase _ v _ _), facade_setPhase]
        rfl

theorem facade_takeScavenger (p : Pool υ) :
    p.takeScavenger.1.facade = p.facade.takeScavenger.1.facade ∧
      p.takeScavenger.2 = p.facade.takeScavenger.2 := by
  unfold takeScavenger
  have hscavenger : p.facade.scavenger = p.scavenger := rfl
  rw [hscavenger]
  split <;> exact ⟨rfl, rfl⟩

theorem facade_close (p : Pool υ) : p.close.facade = p.facade.close.facade := by
  unfold close
  have hclosed : p.facade.closed = p.closed := rfl
  rw [hclosed]
  split
  · rfl
  · dsimp only
    rw [facade_notifyAll, facade_stopAll]
    rfl

theorem facade_release (p : Pool υ) : p.release.facade = p.facade.release.facade := by
  obtain ⟨htaken, -⟩ := facade_takeScavenger p
  unfold release
  generalize p.takeScavenger = taken at htaken
  generalize p.facade.takeScavenger = taken' at htaken
  obtain ⟨q, s⟩ := taken
  obtain ⟨q', s'⟩ := taken'
  dsimp only at htaken ⊢
  have hclosed := congrArg closed htaken
  change q.closed = q'.closed at hclosed
  rw [hclosed]
  split
  · exact htaken
  · rw [facade_debug, facade_debug, facade_close, htaken, ← facade_close]

/-- The end of a release depends on its start alone. -/
theorem facade_beginRelease (p : Pool υ) (now : Nat) (timeout : Duration) :
    (p.beginRelease now timeout).1.facade = (p.facade.beginRelease now timeout).1.facade ∧
      (p.beginRelease now timeout).2 = (p.facade.beginRelease now timeout).2 := by
  obtain ⟨htaken, hscavenger⟩ := facade_takeScavenger p
  unfold beginRelease
  generalize p.takeScavenger = taken at htaken hscavenger
  generalize p.facade.takeScavenger = taken' at htaken hscavenger
  obtain ⟨q, s⟩ := taken
  obtain ⟨q', s'⟩ := taken'
  obtain rfl : s = s' := hscavenger
  dsimp only at htaken ⊢
  have hclosed := congrArg closed htaken
  change q.closed = q'.closed at hclosed
  have hpurge := congrArg (fun r => r.options.disablePurge) htaken
  change q.options.disablePurge = q'.options.disablePurge at hpurge
  rw [hclosed, hpurge]
  split
  · exact ⟨htaken, rfl⟩
  · refine ⟨?_, rfl⟩
    rw [facade_debug, facade_debug, facade_close, htaken, ← facade_close]

theorem facade_startScavenger (p : Pool υ) (now : Nat) :
    (p.startScavenger now).facade = (p.facade.startScavenger now).facade := by
  obtain ⟨htaken, -⟩ := facade_takeScavenger p
  unfold startScavenger
  have hpurge : p.facade.options.disablePurge = p.options.disablePurge := rfl
  rw [hpurge]
  split
  · rfl
  · generalize p.takeScavenger = taken at htaken
    generalize p.facade.takeScavenger = taken' at htaken
    obtain ⟨q, s⟩ := taken
    obtain ⟨q', s'⟩ := taken'
    dsimp only at htaken ⊢
    have hstarted := congrArg (fun r : Pool υ => ({ r with
      scavenger := some r.nextScavenger
      nextScavenger := r.nextScavenger + 1
      scavengers := r.scavengers ++ [
        { id := r.nextScavenger, nextTick := now + r.options.expiryMillis }] } : Pool υ)) htaken
    exact hstarted

theorem facade_reboot (p : Pool υ) (now : Nat) :
    (p.reboot now).facade = (p.facade.reboot now).facade := by
  unfold reboot
  have hclosed : p.facade.closed = p.closed := rfl
  rw [hclosed]
  split
  · rw [facade_debug, facade_debug, facade_startScavenger]
    rfl
  · rfl

theorem facade_drop (p : Pool υ) : p.drop.facade = p.facade.drop.facade := by
  obtain ⟨htaken, -⟩ := facade_takeScavenger p
  unfold drop
  generalize p.takeScavenger = taken at htaken
  generalize p.facade.takeScavenger = taken' at htaken
  obtain ⟨q, s⟩ := taken
  obtain ⟨q', s'⟩ := taken'
  dsimp only at htaken ⊢
  rw [facade_stopAll, facade_stopAll]
  have hgone := congrArg (fun r : Pool υ => ({ r with dropped := true } : Pool υ)) htaken
  exact hgone

end Pool

end Overseer
