import Overseer.Proofs.Pool.Executing
import Overseer.Proofs.Pool.Quota
import Overseer.Proofs.Pool.Slots

/-!
# Closed pools

A release closes a pool in one step: it empties the list of idle workers, tells everybody on it to
exit, and wakes every parked caller. Workers that run a unit, or were handed one and have not
started it, are left alone; whoever comes to its end after that finds the pool closed and exits
instead of joining the list (`Sealed`). A caller that has a turn is refused.

So a closed pool only winds down (`closed_of_run`): what was accepted before is started and runs
to its end, nothing else is, and no slot is taken. Every worker that is left when nobody can move
runs a unit. That needs to know that no worker had fallen off the list while it waited, as nobody
would tell it to exit (`Floor.Listed`).

The callers that were woken by the release look at the pool only when they have a turn. If it was
opened again by then, they find it open (`served_after_reboot`).
-/

namespace Overseer

variable {υ : Type}

/-! ## Nobody who waits falls off the list -/

/-- Only the dead are dropped from the list before somebody is handed out. -/
theorem IdleList.listed_cases_of_detachLive {α : Type} {l l' : IdleList α} {live : α → Bool}
    {dead : List α} {a b : α} (h : l.detachLive live = (dead, some a, l')) (hb : b ∈ l.listed)
    (hlive : live b = true) : b = a ∨ b ∈ l'.listed := by
  obtain ⟨y, hy, rfl⟩ := List.mem_map.1 (l.map_inOrder_perm.mem_iff.2 hb)
  unfold detachLive at h
  split at h
  · simp at h
  · rename_i c since rest heq
    obtain ⟨-, h⟩ := Prod.mk.inj h
    obtain ⟨hc, rfl⟩ := Prod.mk.inj h
    obtain rfl := Option.some.inj hc
    have hkept : y ∈ l.inOrder.dropWhile fun x => !live x.1 := by
      rw [← List.takeWhile_append_dropWhile (p := fun x : α × Nat => !live x.1) (l := l.inOrder)]
        at hy
      rcases List.mem_append.1 hy with hdead | hkept
      · have := List.mem_takeWhile_imp hdead
        simp [hlive] at this
      · exact hkept
    rw [heq] at hkept
    rcases List.mem_cons.1 hkept with rfl | hrest
    · exact .inl rfl
    · exact .inr ((l.listed_withOrder rest).mem_iff.2 (List.mem_map_of_mem hrest))

namespace Floor

variable {f f' : Floor υ}

/-- Every worker that waits for a message is listed as idle. -/
def Listed (f : Floor υ) : Prop :=
  ∀ x ∈ f.workers, x.phase = .parked → x.inbox = [] → x.id ∈ f.idle

/-- Who is told something does not wait any longer. -/
theorem Listed.tell {ws rest : List WorkerId} (hf : f.Listed)
    (h : ∀ x ∈ f.workers, x.id ∈ f.idle → x.id ∈ ws ∨ x.id ∈ rest) (m : Message υ) :
    (({ f with idle := rest } : Floor υ).tell ws m).Listed := by
  intro y hy
  obtain ⟨x, hx, rfl⟩ := List.mem_map.1 hy
  split
  · simp
  · rename_i hw
    exact fun hphase hinbox => (h x hx (hf x hx hphase hinbox)).resolve_left hw

theorem Listed.sheds (hf : f.Listed) (h : f.Sheds f') : f'.Listed := by
  obtain ⟨ws, rest, hall, rfl⟩ := h
  refine hf.tell (fun x _ hi => ?_) .stop
  rw [← hall] at hi
  exact List.mem_append.1 hi

theorem Listed.hire (hf : f.Listed) (u : υ) : (f.hire u).Listed := by
  intro x hx hphase hinbox
  rcases List.mem_append.1 hx with hx | hx
  · exact hf x hx hphase hinbox
  · obtain rfl := List.mem_singleton.1 hx
    contradiction

theorem Listed.without (hf : f.Listed) (w : WorkerId) (n : Nat) : (f.without w n).Listed :=
  fun x hx => hf x (List.mem_filter.1 hx).1

theorem Listed.busy (hf : f.Listed) (w : WorkerId) (u : υ) (inbox : List (Message υ)) :
    (f.setPhase w (.busy u) inbox).Listed := by
  intro y hy
  obtain ⟨x, hx, rfl⟩ := List.mem_map.1 hy
  split
  · simp
  · exact hf x hx

theorem Listed.join (hf : f.Listed) (w : WorkerId) :
    (({ f with idle := f.idle ++ [w] } : Floor υ).setPhase w .parked []).Listed := by
  intro y hy
  obtain ⟨x, hx, rfl⟩ := List.mem_map.1 hy
  split
  · rename_i hw
    have hid : x.id = w := by simpa using hw
    exact fun _ _ => List.mem_append_right _ (List.mem_singleton.2 hid)
  · exact fun hphase hinbox => List.mem_append_left _ (hf x hx hphase hinbox)

end Floor

namespace Pool

variable {p q : Pool υ} {h : List (Occurrence (Pool υ) (PoolEvent υ))} {e : PoolEvent υ}

theorem isAlive_of_mem {x : Worker υ} (hx : x ∈ p.workers) : p.isAlive x.id = true :=
  List.any_eq_true.2 ⟨x, hx, by simp⟩

theorem listed_attempt (hp : p.floor.Listed) (c : CallerId) (u : υ) :
    (p.attempt c u).1.floor.Listed := by
  unfold attempt
  split
  · exact hp
  · split
    · rename_i dead w rest hd
      rw [floor_send, floor_discard]
      refine hp.tell (fun x hx hi => ?_) (.unit u)
      rcases IdleList.listed_cases_of_detachLive hd hi (isAlive_of_mem hx) with rfl | hkept
      · exact .inl (List.mem_singleton_self _)
      · exact .inr hkept
    · rename_i dead rest hd
      -- nobody who is listed exists, so that nobody waits
      have hnobody : p.idle.listed.filter p.isAlive = [] :=
        IdleList.detachLive_eq_none_iff.1 (by rw [hd])
      have hkept : (({ p with idle := rest } : Pool υ).discard dead).floor.Listed := by
        rw [floor_discard]
        intro x hx hphase hinbox
        have halive := List.filter_eq_nil_iff.1 hnobody x.id (hp x hx hphase hinbox)
        exact absurd (isAlive_of_mem hx) halive
      dsimp only
      split
      · exact hkept.hire u
      · split
        · exact hkept
        · exact hkept

theorem listed_perform (ht : p.floor.Tidy) (hp : p.floor.Listed) (e : PoolEvent υ) :
    (p.perform e).1.floor.Listed := by
  cases e with
  | submit c u => exact listed_attempt hp c u
  | resume c =>
    exact keeps_resume (P := fun q => q.floor.Listed) hp c
      fun u => listed_attempt (p := p.unpark c) hp c u
  | abandon c =>
    rw [perform, floor_abandon]
    exact hp
  | pollWorker w =>
    rcases pollWorker_cases ht w with ⟨hfloor, -⟩ | ⟨x, u, inbox, -, -, -, hfloor, -⟩ |
      ⟨x, -, -, -, -, hfloor, -⟩
    · exact hfloor ▸ hp
    · exact hfloor ▸ hp.busy x.id u inbox
    · exact hfloor ▸ hp.without x.id _
  | complete w now =>
    rcases floor_complete p w now with hfloor | hfloor
    · exact hfloor ▸ hp.without w _
    · exact hfloor ▸ hp.join w
  | crash w payload => exact floor_crash p w payload ▸ hp.without w _
  | killWorker w =>
    cases hw : p.worker? w with
    | none =>
      simp only [perform, killWorker, hw]
      exact hp
    | some x =>
      obtain ⟨n, -, hfloor⟩ := floor_killWorker hw
      exact hfloor ▸ hp.without w n
  | pollScavenger s now => exact hp.sheds (sheds_pollScavenger ht s now)
  | killScavenger s => exact hp
  | tune size =>
    rcases floor_tune p size with hfloor | ⟨-, n, hfloor⟩
    · exact hfloor ▸ hp
    · exact hfloor ▸ hp
  | release => exact hp.sheds (sheds_release ht)
  | beginRelease now timeout => exact hp.sheds (sheds_beginRelease ht now timeout)
  | reboot now => exact floor_reboot p now ▸ hp
  | drop => exact Floor.Listed.sheds (f := { p.floor with dropped := true }) hp (sheds_drop ht)

theorem listed_of_run (hrun : (poolSystem υ).Run h p) : p.floor.Listed := by
  induction hrun with
  | start hs =>
    intro x hx
    rw [show x ∈ _ ↔ x ∈ [] from workers_of_start hs ▸ Iff.rfl] at hx
    cases hx
  | @next h p e hrun _ ih => exact listed_perform (tidy_of_run hrun) ih e

/-! ## Nobody is listed at a closed pool -/

/-- A closed pool has nobody on its list, and no scavenger. -/
def Sealed (p : Pool υ) : Prop := p.closed = true → p.idle.items = [] ∧ p.scavenger = none

theorem Sealed.of_lobby (hq : q.lobby = p.lobby) (hp : p.Sealed) : q.Sealed := by
  have hlobby : q.lobby.Sealed := hq ▸ (hp : p.lobby.Sealed)
  exact hlobby

theorem sealed_of_open (hq : q.lobby = p.lobby) (hopen : p.closed = false) : q.Sealed := by
  refine Sealed.of_lobby hq fun hclosed => ?_
  simp [hopen] at hclosed

theorem Sealed.attempt (hp : p.Sealed) (c : CallerId) (u : υ) : (p.attempt c u).1.Sealed := by
  have hmeets := meets_attempt p c u
  generalize (p.attempt c u).2 = r at hmeets
  cases hmeets with
  | shut _ hlobby => exact hp.of_lobby hlobby
  | serves hopen _ hlobby => exact sealed_of_open hlobby hopen
  | waits hopen _ _ hlobby => exact sealed_of_open hlobby hopen
  | turnsAway hover hlobby => exact sealed_of_open hlobby hover.opened

theorem Sealed.arranges (hp : p.Sealed) {e : PoolEvent υ} (h : p.Arranges e q) : q.Sealed := by
  cases h with
  | keeps hidle hscavenger hlobby =>
    refine Sealed.of_lobby hlobby fun hclosed => ⟨?_, ?_⟩
    · rcases hidle hclosed with rfl | hnil
      · exact (hp hclosed).1
      · exact hnil
    · rcases hscavenger with rfl | hnone
      · exact (hp hclosed).2
      · exact hnone
  | closes _ hidle hlobby =>
    refine Sealed.of_lobby hlobby fun _ => ⟨?_, rfl⟩
    rcases hidle with ⟨hclosed, rfl⟩ | hnil
    · exact (hp hclosed).1
    · exact hnil
  | opens _ hlobby => exact sealed_of_open hlobby rfl

theorem Sealed.perform (hp : p.Sealed) (e : PoolEvent υ) : (p.perform e).1.Sealed := by
  cases e with
  | submit c u => exact hp.attempt c u
  | resume c => exact keeps_resume hp c fun u => Sealed.attempt (p := p.unpark c) hp c u
  | abandon c =>
    show (p.abandon c).Sealed
    unfold Pool.abandon
    split
    · exact hp
    · exact hp
  | _ => exact hp.arranges (arranges_perform p (by simp) (by simp) (by simp))

theorem sealed_of_run (hrun : (poolSystem υ).Run h p) : p.Sealed := by
  induction hrun with
  | start hs =>
    obtain ⟨options, capacity, idle, s, hnew⟩ := lobby_of_start hs
    exact sealed_of_open hnew rfl
  | @next h p e _ _ ih => exact (ih.perform e).of_lobby (lobby_collect _)

/-! ## Who closes a pool -/

theorem closed_of_lobby {b : Bool} (hq : q.lobby = p.lobby) (hp : p.closed = b) : q.closed = b := by
  have hclosed : q.closed = p.closed := by
    have hsame := congrArg closed hq
    exact hsame
  exact hclosed.trans hp

theorem closed_attempt (p : Pool υ) (c : CallerId) (u : υ) :
    (p.attempt c u).1.closed = p.closed := by
  have hmeets := meets_attempt p c u
  generalize (p.attempt c u).2 = r at hmeets
  cases hmeets with
  | shut _ hlobby => exact closed_of_lobby hlobby rfl
  | serves _ _ hlobby => exact closed_of_lobby hlobby rfl
  | waits _ _ _ hlobby => exact closed_of_lobby hlobby rfl
  | turnsAway _ hlobby => exact closed_of_lobby hlobby rfl

theorem Arranges.closed {e : PoolEvent υ} (h : p.Arranges e q) : q.closed = p.closed ∨
    (∃ now, e = .reboot now) ∨ q.closed = true ∧ p.Releases e := by
  cases h with
  | keeps _ _ hlobby => exact .inl (closed_of_lobby hlobby rfl)
  | closes hreleases _ hlobby => exact .inr (.inr ⟨closed_of_lobby hlobby rfl, hreleases⟩)
  | opens hreboot _ => exact .inr (.inl ⟨_, hreboot⟩)

/-- A release closes a pool, and a reboot opens it. -/
theorem closed_perform (p : Pool υ) (e : PoolEvent υ) : (p.perform e).1.closed = p.closed ∨
    (∃ now, e = .reboot now) ∨ (p.perform e).1.closed = true ∧ p.Releases e := by
  cases e with
  | submit c u => exact .inl (closed_attempt p c u)
  | resume c =>
    exact .inl (keeps_resume (P := fun q => q.closed = p.closed) rfl c
      fun u => closed_attempt (p.unpark c) c u)
  | abandon c =>
    refine .inl ?_
    show (p.abandon c).closed = p.closed
    unfold abandon
    split <;> rfl
  | _ => exact (arranges_perform p (by simp) (by simp) (by simp)).closed

/-- Does the event close the pool? -/
def Closes (o : Occurrence (Pool υ) (PoolEvent υ)) : Prop :=
  o.before.closed = false ∧ ((poolSystem υ).after o).closed = true

instance (o : Occurrence (Pool υ) (PoolEvent υ)) : Decidable (Closes o) :=
  inferInstanceAs (Decidable (_ ∧ _))

theorem closes_iff {o : Occurrence (Pool υ) (PoolEvent υ)} :
    Closes o ↔ o.before.closed = false ∧ o.before.Releases o.event := by
  obtain ⟨p, e⟩ := o
  have hafter : ((poolSystem υ).after ⟨p, e⟩).closed = (p.perform e).1.closed := rfl
  unfold Closes
  rw [hafter]
  dsimp only
  refine and_congr_right fun hopen => ⟨fun hclosed => ?_, ?_⟩
  · rcases closed_perform p e with hsame | ⟨now, rfl⟩ | ⟨-, hreleases⟩
    · simp [hsame, hopen] at hclosed
    · obtain ⟨s, hopened⟩ := lobby_reboot p now
      have hstill : (p.perform (.reboot now)).1.closed = false := closed_of_lobby hopened rfl
      simp [hstill] at hclosed
    · exact hreleases
  · rintro (rfl | ⟨now, timeout, wait, rfl, hwait⟩)
    · exact closed_of_lobby (lobby_release p) rfl
    · rcases lobby_beginRelease p now timeout with ⟨hfailed, -⟩ | ⟨-, -, hclosed⟩
      · simp [hfailed] at hwait
      · exact closed_of_lobby hclosed rfl

/-- From then on the pool is closed, until it is opened again. -/
theorem closed_since (hrun : (poolSystem υ).Run h p)
    {pre post : List (Occurrence (Pool υ) (PoolEvent υ))} {o : Occurrence (Pool υ) (PoolEvent υ)}
    (heq : h = pre ++ o :: post) (hcloses : Closes o)
    (hshut : ∀ o' ∈ post, ∀ now, o'.event ≠ .reboot now) :
    p.closed = true ∧ ∀ o' ∈ post, o'.before.closed = true := by
  refine hrun.since (P := fun post p => (∀ o' ∈ post, ∀ now, o'.event ≠ .reboot now) →
    p.closed = true ∧ ∀ o' ∈ post, o'.before.closed = true)
    (fun _ => ⟨hcloses.2, by simp⟩) ?_ heq hshut
  intro post p e _ _ ih hshut
  obtain ⟨hclosed, hbefore⟩ := ih fun o' ho' => hshut o' (List.mem_append_left _ ho')
  refine ⟨?_, fun o' ho' => ?_⟩
  · show (p.perform e).1.closed = true
    rcases closed_perform p e with hsame | ⟨now, rfl⟩ | ⟨hagain, -⟩
    · exact hsame.trans hclosed
    · exact absurd rfl (hshut ⟨p, .reboot now⟩ (by simp) now)
    · exact hagain
  · rcases List.mem_append.1 ho' with ho' | ho'
    · exact hbefore o' ho'
    · obtain rfl := List.mem_singleton.1 ho'
      exact hclosed

/-! ## Callers of a closed pool -/

theorem attempt_of_closed (hclosed : p.closed = true) (c : CallerId) (u : υ) :
    p.attempt c u = (p, .refused .closed) := by
  simp [attempt, hclosed]

/-- Does the call `c` have a turn, with its unit `u`? -/
def HasTurn (o : Occurrence (Pool υ) (PoolEvent υ)) (c : CallerId) (u : υ) : Prop :=
  o.event = .submit c u ∨ o.event = .resume c ∧ ⟨c, u⟩ ∈ o.before.callers

theorem caller?_of_mem (hids : (p.callers.map (·.id)).Nodup) {x : Caller υ} (hx : x ∈ p.callers) :
    p.caller? x.id = some x := by
  cases hc : p.caller? x.id with
  | none =>
    have hnobody := List.find?_eq_none.1 hc x hx
    simp at hnobody
  | some y =>
    obtain ⟨hy, hid⟩ := mem_of_caller? hc
    rw [List.inj_on_of_nodup_map hids hy hx hid]

/-- Everybody who is parked at a closed pool has been woken, and whoever has a turn is refused. -/
theorem refused_of_closed (hrun : (poolSystem υ).Run h p) (hclosed : p.closed = true)
    {e : PoolEvent υ} {c : CallerId} {u : υ} (hturn : HasTurn ⟨p, e⟩ c u) :
    (p.perform e).2 = .submission (.refused .closed) ∧ (p.traffic e).refused = [u] := by
  rcases hturn with he | ⟨he, hparked⟩
  · obtain rfl : e = .submit c u := he
    simp [perform, submit, traffic, attempt_of_closed hclosed, Traffic.answered]
  · obtain rfl : e = .resume c := he
    have howes := owes_of_run hrun
    have hcaller : p.caller? c = some ⟨c, u⟩ := caller?_of_mem (nodup_callers hrun) hparked
    have hwoken : p.notifier.isWoken c = true := by
      have hknown : c ∈ p.notifier.known := howes.known.mem_iff.1 (List.mem_map_of_mem hparked)
      rw [Notifier.known, howes.closed hclosed] at hknown
      simpa [Notifier.isWoken] using hknown
    rcases resume_cases p c with ⟨-, hrests⟩ | ⟨x, hx, -, htries⟩
    · simp [hrests _ hcaller] at hwoken
    · obtain rfl : x = ⟨c, u⟩ := Option.some.inj (hx.symm.trans hcaller)
      rw [attempt_of_closed (p := p.unpark c) hclosed] at htries
      simp [perform, traffic, htries, hcaller, Traffic.answered]

/-- A closed pool accepts nothing. -/
theorem accepted_of_closed (hclosed : p.closed = true) (e : PoolEvent υ) :
    (p.traffic e).accepted = [] := by
  cases e with
  | submit c u => simp [traffic, submit, attempt_of_closed hclosed, Traffic.answered]
  | resume c =>
    simp only [traffic]
    split
    · rcases resume_cases p c with ⟨hrests, -⟩ | ⟨x, -, -, htries⟩
      · rw [hrests]
        rfl
      · rw [htries, attempt_of_closed (p := p.unpark c) hclosed]
        rfl
    · rfl
  | pollWorker w =>
    simp only [traffic]
    split <;> rfl
  | _ => rfl

/-! ## Winding down -/

end Pool

/-- A slot is taken only for a unit that is accepted. -/
theorem Floor.Step.accepts {f f' : Floor υ} {t : Traffic υ} (h : f.Step t f')
    (hr : f.running < f'.running) : t.accepted ≠ [] := by
  have hattempt : ∀ {g : Floor υ} {c : CallerId} {u : υ} {r : Submission},
      g.Attempt c u r f' → g.running < f'.running → (Traffic.answered u r).accepted ≠ [] := by
    intro g c u r h hr
    cases h with
    | refuses e _ => exact absurd hr (Nat.lt_irrefl _)
    | waits _ => exact absurd hr (Nat.lt_irrefl _)
    | hands _ _ => exact absurd hr (Nat.lt_irrefl _)
    | hires _ _ => simp [Traffic.answered]
  cases h with
  | submits h => exact hattempt h hr
  | resumes _ h => exact hattempt h hr
  | @leaves x n _ hn =>
    have hfreed : f.freed ≤ f.running := by
      unfold Floor.freed
      split <;> omega
    have hless : f.running < n := hr
    omega
  | _ => exact absurd hr (Nat.lt_irrefl _)

namespace Pool

variable {p : Pool υ} {h pre post : List (Occurrence (Pool υ) (PoolEvent υ))}
  {o : Occurrence (Pool υ) (PoolEvent υ)}

theorem notices_of_run (hrun : (poolSystem υ).Run h p) : p.notices = [] := by
  cases hrun with
  | start hs =>
    obtain ⟨capacity, options, now, p₀, hnew, rfl⟩ := hs
    rfl
  | next _ _ => rfl

/-- A closed pool has nothing to release. -/
theorem release_of_closed (hrun : (poolSystem υ).Run h p) (hclosed : p.closed = true) :
    p.release = p ∧ ∀ now timeout, (p.beginRelease now timeout).1 = p := by
  have hnone := (sealed_of_run hrun hclosed).2
  have htaken : p.takeScavenger = (p, none) := by simp [takeScavenger, hnone]
  exact ⟨by simp [release, htaken, hclosed], fun now timeout => by
    simp [beginRelease, htaken, hclosed]⟩

/-- Another release changes nothing, and nobody hears of it. -/
theorem after_release_of_closed (hrun : (poolSystem υ).Run h o.before)
    (hclosed : o.before.closed = true)
    (he : o.event = .release ∨ ∃ now timeout, o.event = .beginRelease now timeout) :
    (poolSystem υ).after o = o.before ∧ ((poolSystem υ).shows o).1 = [] := by
  obtain ⟨hreleased, hbegun⟩ := release_of_closed hrun hclosed
  have hsame : (o.before.perform o.event).1 = o.before := by
    rcases he with he | ⟨now, timeout, he⟩
    · rw [he]
      exact hreleased
    · rw [he]
      exact hbegun now timeout
  have hnotices := notices_of_run hrun
  have hnothing : (o.before.perform o.event).1.collect = ([], o.before) := by
    rw [hsame, collect, hnotices, ← hnotices]
  exact ⟨congrArg Prod.snd hnothing, congrArg Prod.fst hnothing⟩

/-- Nothing is accepted from the close on. -/
theorem acceptances_since (heq : h = pre ++ o :: post) (hcloses : Closes o)
    (hclosed : ∀ o' ∈ post, o'.before.closed = true) : acceptances h = acceptances pre := by
  have hlast : (o.before.traffic o.event).accepted = [] := by
    obtain ⟨p, e⟩ := o
    obtain ⟨-, hreleases⟩ := closes_iff.1 hcloses
    rcases hreleases with he | ⟨now, timeout, wait, he, -⟩
    · obtain rfl : e = .release := he
      rfl
    · obtain rfl : e = .beginRelease now timeout := he
      rfl
  have hrest : (traffics post).flatMap Traffic.accepted = [] := by
    refine List.flatMap_eq_nil_iff.2 fun t ht => ?_
    obtain ⟨o', ho', rfl⟩ := List.mem_map.1 ht
    exact accepted_of_closed (hclosed o' ho') o'.event
  simp only [traffics] at hrest
  simp [heq, acceptances, traffics, hlast, hrest]

/-- No slot is taken from the close on. -/
theorem running_since (hrun : (poolSystem υ).Run h p) (heq : h = pre ++ o :: post)
    (hcloses : Closes o) (hclosed : ∀ o' ∈ post, o'.before.closed = true) :
    ∀ o' ∈ o :: post, ((poolSystem υ).after o').running ≤ o'.before.running := by
  intro o' ho'
  have hstep := (step_of_mem hrun (o := o') (heq ▸ List.mem_append_right pre ho')).2
  by_contra hr
  have hmore := hstep.accepts (Nat.lt_of_not_le hr)
  have hsome : acceptances (o :: post) ≠ [] := fun hnil =>
    hmore (List.flatMap_eq_nil_iff.1 hnil _ (List.mem_map_of_mem ho'))
  have hsame := acceptances_since heq hcloses hclosed
  rw [heq, acceptances, traffics, List.map_append, List.flatMap_append] at hsame
  exact hsome (List.append_right_eq_self.1 hsame)

/-- When nobody can move at a closed pool, every worker runs a unit, and no caller is parked. -/
theorem executing_of_isQuiet (hrun : (poolSystem υ).Run h p) (hclosed : p.closed = true)
    (hquiet : p.isQuiet = true) :
    p.callers = [] ∧ p.workers.length = p.floor.executing.length := by
  simp only [isQuiet, Bool.and_eq_true, List.isEmpty_iff, List.all_eq_true] at hquiet
  obtain ⟨hwoken, hturns⟩ := hquiet
  have howes := owes_of_run hrun
  constructor
  · have hknown := howes.known
    rw [Notifier.known, howes.closed hclosed, hwoken] at hknown
    exact List.map_eq_nil_iff.1 hknown.eq_nil
  · have hnobody : p.floor.idle = [] := by
      have hitems := (sealed_of_run hrun hclosed).1
      simp [floor, IdleList.listed, hitems]
    have hone : ∀ x ∈ p.workers, x.job.length = 1 := by
      intro x hx
      have hturn := hturns x hx
      cases hphase : x.phase with
      | spawned u => simp [hphase] at hturn
      | busy u => simp [Worker.job, hphase]
      | parked =>
        -- who waits would be listed, and a closed pool lists nobody
        have hinbox : x.inbox = [] := by simpa [hphase] using hturn
        have hlisted := listed_of_run hrun x hx hphase hinbox
        simp [hnobody] at hlisted
    show p.workers.length = (p.workers.flatMap Worker.job).length
    rw [List.length_flatMap, List.map_congr_left hone]
    simp

/-- Whatever happens to a pool whose workers are not dropped, once a release has closed it and
until it is opened again: nobody is listed as idle; a caller that has a turn is refused, and its
unit is never started, unless another call brought the same; no slot is taken; what was accepted
before is what is started and what workers have been handed, and what is started is executed until
it comes to its end; another release changes nothing. When nobody can move, no caller is parked,
everything that was handed out is started, and as long as the pool has an owner, the slots taken
are those of the units that are executed. -/
theorem closed_of_run [DecidableEq υ] (hrun : (poolSystem υ).Run h p)
    (hkept : ∀ o' ∈ h, ∀ w, o'.event ≠ .killWorker w) (heq : h = pre ++ o :: post)
    (hcloses : Closes o) (hshut : ∀ o' ∈ post, ∀ now, o'.event ≠ .reboot now) :
    (p.closed = true ∧ p.idle.items = []) ∧
    (∀ o' ∈ post, ∀ c u, HasTurn o' c u →
      ((poolSystem υ).shows o').2 = .submission (.refused .closed) ∧
        ((offers h).count u ≤ 1 → ∀ w, (w, u) ∉ starts h)) ∧
    (∀ o' ∈ o :: post, ((poolSystem υ).after o').running ≤ o'.before.running) ∧
    ((starts h).map Prod.snd ++ p.floor.handed).Perm (acceptances pre) ∧
    (p.floor.executing ++ finishes h).Perm (starts h) ∧
    (∀ o' ∈ post, o'.event = .release ∨ (∃ now timeout, o'.event = .beginRelease now timeout) →
      (poolSystem υ).after o' = o'.before ∧ ((poolSystem υ).shows o').1 = []) ∧
    (p.isQuiet = true → p.callers = [] ∧ p.floor.handed = [] ∧
      (p.dropped = false → p.running = p.floor.executing.length)) := by
  obtain ⟨hclosed, hbefore⟩ := closed_since hrun heq hcloses hshut
  have hhanded := handed_of_run hrun
  have hstarts := starts_of_run hrun
  rw [losses_eq_nil hkept, List.append_nil, acceptances_since heq hcloses hbefore] at hhanded
  rw [cutOffs_eq_nil hkept, List.append_nil] at hstarts
  have hmem : ∀ o' ∈ post, o' ∈ h := fun o' ho' => by
    rw [heq]
    exact List.mem_append_right _ (List.mem_cons_of_mem _ ho')
  refine ⟨⟨hclosed, (sealed_of_run hrun hclosed).1⟩, fun o' ho' c u hturn => ?_,
    running_since hrun heq hcloses hbefore, hhanded, hstarts, fun o' ho' hrelease => ?_,
    fun hquiet => ?_⟩
  · obtain ⟨before, hrun', -, -⟩ := hrun.of_mem (hmem o' ho')
    obtain ⟨hanswer, hrefused⟩ := refused_of_closed hrun' (hbefore o' ho') hturn
    refine ⟨hanswer, fun honce w => not_started_of_refused hrun honce ?_ w⟩
    refine List.mem_append_left _ (List.mem_flatMap.2 ⟨_, List.mem_map_of_mem (hmem o' ho'), ?_⟩)
    rw [hrefused]
    exact List.mem_singleton_self u
  · obtain ⟨before, hrun', -, -⟩ := hrun.of_mem (hmem o' ho')
    exact after_release_of_closed hrun' (hbefore o' ho') hrelease
  · obtain ⟨hparked, hbusy⟩ := executing_of_isQuiet hrun hclosed hquiet
    refine ⟨hparked, handed_of_isQuiet (tidy_of_run hrun) hquiet, fun hd => ?_⟩
    rw [slots_of_run hrun hd, countP_vanishes hkept, Nat.add_zero, hbusy]

/-- Two workers, of which one has started its unit and the other has not, and a caller that waits.
The pool is released, and the capacity raised. The caller is refused, and so is a newcomer. The
first unit ends and the second is started. -/
theorem closed_of_run_midway : ∃ (h pre post : List (Occurrence (Pool Nat) (PoolEvent Nat)))
    (o : Occurrence (Pool Nat) (PoolEvent Nat)) (p : Pool Nat), (poolSystem Nat).Run h p ∧
      (∀ o' ∈ h, ∀ w, o'.event ≠ .killWorker w) ∧ h = pre ++ o :: post ∧ Closes o ∧
      (∀ o' ∈ post, ∀ now, o'.event ≠ .reboot now) ∧ o.before.callers.length = 1 ∧
      p.isQuiet = true ∧ p.dropped = false ∧ acceptances pre = [10, 11] ∧
      p.idle.items = [] ∧ ((starts h).map Prod.snd ++ p.floor.handed).Perm (acceptances pre) ∧
      p.callers = [] ∧ p.running = p.floor.executing.length ∧ p.running = 1 := by
  have hstart : (poolSystem Nat).starts (Pool.create (some 2) {} 0).collect.2 :=
    ⟨2, {}, 0, _, rfl, rfl⟩
  obtain ⟨h, p, hrun, hcheck⟩ := System.exists_run_of_replay hstart
    [.submit 0 10, .submit 1 11, .pollWorker 0, .submit 2 12, .release, .tune 5, .submit 3 13,
      .resume 2, .complete 0 7, .pollWorker 1, .release]
    (fun h p =>
      (h.all fun o => match o.event with | .killWorker _ | .reboot _ => false | _ => true) &&
      p.isQuiet && !p.dropped && p.running == 1 &&
      match h.drop 4 with
      | o :: _ => decide (Closes o) && o.before.callers.length == 1 &&
        decide (acceptances (h.take 4) = [10, 11])
      | [] => false) (by decide)
  simp only [Bool.and_eq_true, Bool.not_eq_true', beq_iff_eq, List.all_eq_true] at hcheck
  obtain ⟨⟨⟨⟨hevents, hquiet⟩, hd⟩, hrunning⟩, hcheck⟩ := hcheck
  split at hcheck
  · rename_i o post hdrop
    simp only [Bool.and_eq_true, decide_eq_true_eq, beq_iff_eq] at hcheck
    obtain ⟨⟨hcloses, hparked⟩, haccepted⟩ := hcheck
    have heq : h = h.take 4 ++ o :: post := hdrop ▸ (List.take_append_drop 4 h).symm
    have hkept : ∀ o' ∈ h, ∀ w, o'.event ≠ .killWorker w := by
      intro o' ho' w he
      have := hevents o' ho'
      simp [he] at this
    have hshut : ∀ o' ∈ post, ∀ now, o'.event ≠ .reboot now := by
      intro o' ho' now he
      have := hevents o' (heq ▸ List.mem_append_right _ (List.mem_cons_of_mem _ ho'))
      simp [he] at this
    obtain ⟨⟨-, hidle⟩, -, -, hstarted, -, -, hend⟩ := closed_of_run hrun hkept heq hcloses hshut
    obtain ⟨hcallers, -, hslots⟩ := hend hquiet
    exact ⟨h, h.take 4, post, o, p, hrun, hkept, heq, hcloses, hshut, hparked, hquiet, hd,
      haccepted, hidle, hstarted, hcallers, hslots hd, hrunning⟩
  · contradiction

/-- A caller that was parked at the close has its turn only after the pool was opened again. It is
served, and its unit is started. -/
theorem served_after_reboot : ¬ ∀ (h pre post : List (Occurrence (Pool Nat) (PoolEvent Nat)))
    (o : Occurrence (Pool Nat) (PoolEvent Nat)) (p : Pool Nat), (poolSystem Nat).Run h p →
      h = pre ++ o :: post → Closes o → ∀ x ∈ o.before.callers, ∀ w, (w, x.unit) ∉ starts h := by
  intro hclaim
  have hstart : (poolSystem Nat).starts (Pool.create (some 1) {} 0).collect.2 :=
    ⟨1, {}, 0, _, rfl, rfl⟩
  obtain ⟨h, p, hrun, hcheck⟩ := System.exists_run_of_replay hstart
    [.submit 0 10, .submit 1 11, .pollWorker 0, .release, .complete 0 5, .reboot 5, .resume 1,
      .pollWorker 1]
    (fun h _ => match h.drop 3 with
      | o :: _ => decide (Closes o) && decide (⟨1, 11⟩ ∈ o.before.callers) &&
        decide ((1, 11) ∈ starts h)
      | [] => false) (by decide)
  split at hcheck
  · rename_i o post hdrop
    simp only [Bool.and_eq_true, decide_eq_true_eq] at hcheck
    obtain ⟨⟨hcloses, hparked⟩, hstarted⟩ := hcheck
    have heq : h = h.take 3 ++ o :: post := hdrop ▸ (List.take_append_drop 3 h).symm
    exact hclaim h _ post o p hrun heq hcloses _ hparked 1 hstarted
  · contradiction

end Pool

end Overseer
