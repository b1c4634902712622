import Overseer.Proofs.Pool.Lobby
import Overseer.Proofs.Pool.Units

/-!
# The quota of waiting callers

A caller that finds no worker and no free slot waits, if waiting is allowed and the quota is not
used up. One that was woken gives up its place before it tries again, so that newcomers and other
woken callers may take what it was woken for, and the place as well. The count of waiting callers
is the number of callers that are parked at every moment of that, whoever was woken and not polled
since included (`Counted`). A caller that tries again therefore finds its own place free, and waits
again where a newcomer is refused (`quota_of_run`).
-/

namespace Overseer

variable {υ : Type}

/-- The call that has a turn with an event. -/
def PoolEvent.caller? : PoolEvent υ → Option CallerId
  | .submit c _ => some c
  | .resume c => some c
  | _ => none

namespace Pool

variable {p q : Pool υ} {h : List (Occurrence (Pool υ) (PoolEvent υ))}

/-! ## The count -/

/-- The callers that are parked are counted, they are within the quota, and they may wait at all. -/
structure Counted (p : Pool υ) : Prop where
  count : p.waiting = p.callers.length
  quota : p.options.maxBlocking ≠ 0 → p.waiting ≤ p.options.maxBlocking
  blocking : p.callers ≠ [] → p.options.nonblocking = false ∧ p.capacity.isSome = true

theorem counted_lobby : p.lobby.Counted ↔ p.Counted := by
  have hbounded : (p.capacity.map fun _ => 0).isSome = p.capacity.isSome := by simp
  exact ⟨fun h => ⟨h.count, h.quota, hbounded ▸ h.blocking⟩,
    fun h => ⟨h.count, h.quota, hbounded ▸ h.blocking⟩⟩

theorem Counted.of_lobby (hq : q.lobby = p.lobby) (hp : p.Counted) : q.Counted := by
  rw [← counted_lobby, hq]
  exact counted_lobby.2 hp

theorem Counted.attempt (hp : p.Counted) (c : CallerId) (u : υ) : (p.attempt c u).1.Counted := by
  have hmeets := meets_attempt p c u
  generalize (p.attempt c u).2 = r at hmeets
  have hlisted : ∀ {q : Pool υ} {idle : IdleList WorkerId},
      q.lobby = ({ p with idle := idle } : Pool υ).lobby → q.Counted :=
    fun hq => Counted.of_lobby hq { hp with }
  cases hmeets with
  | shut _ hlobby => exact hp.of_lobby hlobby
  | serves _ _ hlobby => exact hlisted hlobby
  | waits _ hfull hmay hlobby =>
    have hbounded := (hasRoom_eq_false_iff.1 hfull).1
    simp only [mayWait, Bool.and_eq_true, Bool.not_eq_true', Bool.or_eq_true, beq_iff_eq,
      decide_eq_true_eq] at hmay
    obtain ⟨hblocking, hplace⟩ := hmay
    refine Counted.of_lobby hlobby ⟨?_, fun hlimit => ?_, fun _ => ⟨hblocking, hbounded⟩⟩
    · simp [hp.count]
    · rcases hplace with hnone | hless
      · exact absurd hnone hlimit
      · exact hless
  | turnsAway _ hlobby => exact hlisted hlobby

/-- A caller that gives up its place leaves the others counted, and one place free. -/
theorem Counted.leave (hp : p.Counted) (hids : (p.callers.map (·.id)).Nodup) {x : Caller υ}
    (hx : x ∈ p.callers) (notifier : Notifier) (notices : List PoolNotice) :
    let q : Pool υ := { p with
      notifier := notifier
      waiting := p.waiting - 1
      callers := p.callers.filter (·.id != x.id)
      notices := notices }
    q.Counted ∧ q.mayWait = true := by
  have hone : p.callers.length = (p.callers.filter (·.id != x.id)).length + 1 :=
    (perm_cons_filter hids hx).length_eq
  obtain ⟨hblocking, hbounded⟩ := hp.blocking (List.ne_nil_of_mem hx)
  have hcount := hp.count
  refine ⟨⟨?_, fun hlimit => ?_, fun _ => ⟨hblocking, hbounded⟩⟩, ?_⟩
  · show p.waiting - 1 = (p.callers.filter (·.id != x.id)).length
    omega
  · have := hp.quota hlimit
    show p.waiting - 1 ≤ p.options.maxBlocking
    omega
  · refine Bool.not_eq_false _ ▸ fun hno => ?_
    rcases mayWait_eq_false_iff.1 hno with hnonblocking | ⟨hlimit, hused⟩
    · simp [hblocking] at hnonblocking
    · have hless := hp.quota hlimit
      have hused : p.options.maxBlocking ≤ p.waiting - 1 := hused
      omega

/-- A caller that was woken finds its own place free, whatever has become of the rest. -/
theorem Counted.resume (hp : p.Counted) (hids : (p.callers.map (·.id)).Nodup) (c : CallerId) :
    (p.resume c).1.Counted ∧ (p.resume c).2 ≠ .refused .overload := by
  rcases resume_cases p c with ⟨hrests, -⟩ | ⟨x, hc, -, htries⟩
  · rw [hrests]
    exact ⟨hp, by simp⟩
  · obtain ⟨hx, rfl⟩ := mem_of_caller? hc
    obtain ⟨hleft, hmay⟩ := hp.leave hids hx (p.notifier.take x.id) p.notices
    rw [htries]
    refine ⟨hleft.attempt x.id x.unit, fun hanswer => ?_⟩
    have hturned := mayWait_eq_false_iff.2 (overload_iff.1 hanswer).turned
    exact absurd (hturned.symm.trans hmay) (by simp)

theorem Counted.abandon (hp : p.Counted) (hids : (p.callers.map (·.id)).Nodup) (c : CallerId) :
    (p.abandon c).Counted := by
  unfold Pool.abandon
  split
  · rename_i hparked
    obtain ⟨x, hx, hid⟩ := List.any_eq_true.1 hparked
    obtain rfl : x.id = c := by simpa using hid
    exact (hp.leave hids hx (p.notifier.leave x.id).1 _).1
  · exact hp

/-- Nobody else has anything to do with the count. -/
theorem Counted.arranges (hp : p.Counted) {e : PoolEvent υ} (h : p.Arranges e q) : q.Counted := by
  cases h with
  | keeps _ _ hlobby => exact Counted.of_lobby hlobby { hp with }
  | closes _ _ hlobby => exact Counted.of_lobby hlobby { hp with }
  | opens _ hlobby => exact Counted.of_lobby hlobby { hp with }

theorem Counted.perform (hp : p.Counted) (hids : (p.callers.map (·.id)).Nodup) (e : PoolEvent υ) :
    (p.perform e).1.Counted := by
  cases e with
  | submit c u => exact hp.attempt c u
  | resume c => exact (hp.resume hids c).1
  | abandon c => exact hp.abandon hids c
  | _ => exact hp.arranges (arranges_perform p (by simp) (by simp) (by simp))

/-! ## Runs -/

theorem nodup_callers (hrun : (poolSystem υ).Run h p) : (p.callers.map (·.id)).Nodup :=
  (owes_of_run hrun).known.nodup_iff.2 (owes_of_run hrun).nodup

theorem counted_of_run (hrun : (poolSystem υ).Run h p) : p.Counted := by
  induction hrun with
  | start hs =>
    obtain ⟨options, capacity, idle, s, hnew⟩ := lobby_of_start hs
    exact Counted.of_lobby hnew ⟨rfl, fun _ => Nat.zero_le _, fun hne => absurd rfl hne⟩
  | @next h p e hrun _ ih => exact (ih.perform (nodup_callers hrun) e).of_lobby (lobby_collect _)

/-- Whoever has been parked tries again with its own place free, so it is never refused for lack
of room, however often it is woken in vain. -/
theorem ne_overload_of_parked (hrun : (poolSystem υ).Run h p)
    {pre post : List (Occurrence (Pool υ) (PoolEvent υ))} {o o' : Occurrence (Pool υ) (PoolEvent υ)}
    (heq : h = pre ++ o :: post) {x : Caller υ} (hx : x ∈ ((poolSystem υ).after o).callers)
    (ho' : o' ∈ post) (hturn : o'.event.caller? = some x.id) :
    ((poolSystem υ).shows o').2 ≠ .submission (.refused .overload) := by
  obtain ⟨mid, rest, rfl⟩ := List.append_of_mem ho'
  have hsplit : h = (pre ++ o :: mid) ++ o' :: rest := by simp [heq]
  obtain ⟨hbefore, hall, -⟩ := hrun.split hsplit
  obtain ⟨before, event⟩ := o'
  cases event with
  | submit c u =>
    -- the number of the call was given away before the caller parked
    obtain rfl : c = x.id := Option.some.inj hturn
    have hbooked := owes_of_run (hrun.split heq).2.2
    have hbegun : x.id ∈ submitted (pre ++ [o]) :=
      hbooked.begun (hbooked.known.mem_iff.1 (List.mem_map_of_mem hx))
    have hnew : x.id ∉ submitted (pre ++ o :: mid) := by
      have hall : before.dropped = false ∧ x.id ∉ submitted (pre ++ o :: mid) := by
        simpa [poolSystem, Pool.allows] using hall
      exact hall.2
    refine absurd ?_ hnew
    rw [show pre ++ o :: mid = pre ++ [o] ++ mid by simp, submitted, List.filterMap_append]
    exact List.mem_append_left _ hbegun
  | resume c =>
    have hanswer := ((counted_of_run hbefore).resume (nodup_callers hbefore) c).2
    exact fun hover => hanswer (PoolAnswer.submission.inj hover)
  | _ => simp [PoolEvent.caller?] at hturn

/-- Whatever has happened to a pool: the callers counted as waiting are those that are parked, of
whom the notifier knows which ones have been woken and not polled since, and they are within the
quota, if there is one; in a pool that does not let callers wait, or has room for all, there are
none. A new call is refused for lack of room exactly where the pool is overloaded, and one that has
been parked never. -/
theorem quota_of_run (hrun : (poolSystem υ).Run h p) :
    p.waiting = p.callers.length ∧
    (p.callers.map (·.id)).Perm (p.notifier.waiting ++ p.notifier.woken.map Prod.fst) ∧
    (p.options.maxBlocking ≠ 0 → p.waiting ≤ p.options.maxBlocking) ∧
    (p.options.nonblocking = true ∨ p.capacity = none → p.waiting = 0) ∧
    (∀ o ∈ h, ∀ c u, o.event = .submit c u →
      (((poolSystem υ).shows o).2 = .submission (.refused .overload) ↔ o.before.IsOverloaded)) ∧
    ∀ pre o post, h = pre ++ o :: post → ∀ x ∈ ((poolSystem υ).after o).callers, ∀ o' ∈ post,
      o'.event.caller? = some x.id →
        ((poolSystem υ).shows o').2 ≠ .submission (.refused .overload) := by
  have hcounted := counted_of_run hrun
  refine ⟨hcounted.count, (owes_of_run hrun).known, hcounted.quota, fun hnever => ?_,
    fun o _ c u hsubmit => ?_, fun pre o post heq x hx o' ho' hturn =>
      ne_overload_of_parked hrun heq hx ho' hturn⟩
  · rw [hcounted.count, List.length_eq_zero_iff]
    by_contra hparked
    obtain ⟨hblocking, hbounded⟩ := hcounted.blocking hparked
    rcases hnever with hnonblocking | hunbounded
    · simp [hblocking] at hnonblocking
    · simp [hunbounded] at hbounded
  · obtain ⟨before, event⟩ := o
    obtain rfl : event = .submit c u := hsubmit
    refine Iff.trans ⟨fun hanswer => PoolAnswer.submission.inj hanswer, fun hover => ?_⟩
      (overload_iff (p := before) (c := c) (u := u))
    exact congrArg PoolAnswer.submission hover

/-- Is the third caller refused while the second waits, and does the second have another turn? -/
def overtakes : List (Occurrence (Pool Nat) (PoolEvent Nat)) → Bool
  | [_, o, ⟨q, .submit 2 12⟩, _, _, ⟨_, .resume 1⟩] =>
    decide ((q.submit 2 12).2 = .refused .overload) &&
      ((poolSystem Nat).after o).callers.any (·.id == 1)
  | _ => false

/-- One worker and one place to wait. The second caller waits and the third is refused. A larger
capacity wakes the second; a newcomer takes the new slot, and the second waits again. -/
theorem quota_of_run_overtaken : ∃ (h : List (Occurrence (Pool Nat) (PoolEvent Nat)))
    (p : Pool Nat), (poolSystem Nat).Run h p ∧ p.options.maxBlocking = 1 ∧ p.waiting = 1 ∧
      p.waiting = p.callers.length ∧ p.waiting ≤ p.options.maxBlocking ∧
      (∃ o ∈ h, o.before.IsOverloaded) ∧
      ∃ pre o post, h = pre ++ o :: post ∧ (∃ x ∈ ((poolSystem Nat).after o).callers,
        ∃ o' ∈ post, o'.event.caller? = some x.id ∧
          ((poolSystem Nat).shows o').2 ≠ .submission (.refused .overload)) := by
  have hstart : (poolSystem Nat).starts (Pool.create (some 1) { maxBlocking := 1 } 0).collect.2 :=
    ⟨1, { maxBlocking := 1 }, 0, _, rfl, rfl⟩
  obtain ⟨h, p, hrun, hcheck⟩ := System.exists_run_of_replay hstart
    [.submit 0 10, .submit 1 11, .submit 2 12, .tune 2, .submit 3 13, .resume 1]
    (fun h p => p.options.maxBlocking == 1 && p.waiting == 1 && overtakes h) (by decide)
  obtain ⟨hcount, -, hlimit, -, hrefused, hnever⟩ := quota_of_run hrun
  simp only [Bool.and_eq_true, beq_iff_eq] at hcheck
  obtain ⟨⟨hquota, hwaiting⟩, hcheck⟩ := hcheck
  unfold overtakes at hcheck
  split at hcheck
  · rename_i a o q b c r
    simp only [Bool.and_eq_true, decide_eq_true_eq, List.any_eq_true, beq_iff_eq] at hcheck
    obtain ⟨hover, x, hx, hid⟩ := hcheck
    have hturn : (PoolEvent.resume 1 : PoolEvent Nat).caller? = some x.id := hid ▸ rfl
    exact ⟨_, p, hrun, hquota, hwaiting, hcount, hlimit (by simp [hquota]),
      ⟨⟨q, .submit 2 12⟩, by simp, (hrefused _ (by simp) 2 12 rfl).1 (by
        exact congrArg PoolAnswer.submission hover)⟩,
      [a], o, _, rfl, x, hx, ⟨r, .resume 1⟩, by simp, hturn,
      hnever [a] o _ rfl x hx ⟨r, .resume 1⟩ (by simp) hturn⟩
  · contradiction

end Pool

end Overseer
