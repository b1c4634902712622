import Overseer.Proofs.Pool.Vacated

/-!
# Releases with a deadline

A `Watch` is a pool with a clock, and the calls of `release_timeout` that have closed it and wait.
Such a call looks whether everybody has gone when it begins and then every 10 ms; time does not pass
while a look is due. Everything else can happen in between, tasks that are dropped included. The
pool does not go while a call waits, as the call is made through a handle.

A call of a closed pool fails and changes nothing. A call of an open one closes the pool and is
answered by the first look that finds everybody gone, or if there is none, by the first at or after
its deadline, which fails (`release_of_run`). Everybody has gone if no worker and no scavenger that
was stopped is alive, and nobody is missing. If somebody is, no look finds that out, and the call
fails although nobody is alive (`timeout_of_nobody`).
-/

namespace Overseer

/-- A call of `release_timeout` that waits. -/
structure Release where
  id : Nat
  wait : ReleaseWait
  /-- The time of the next look. -/
  next : Nat

/-- A pool, the time, and the releases that wait. -/
structure Watch (υ : Type) where
  pool : Pool υ
  now : Nat
  calls : List Release := []

/-- What happens to a pool with a clock. -/
inductive WatchEvent (υ : Type) where
  | happens (e : PoolEvent υ)
  /-- A millisecond passes. -/
  | passes
  /-- A new call of `release_timeout`. -/
  | calls (c : Nat) (timeout : Duration)
  /-- A call looks again. -/
  | looks (c : Nat)
  /-- A call is dropped. -/
  | abandons (c : Nat)

abbrev WatchOccurrence (υ : Type) := Occurrence (Watch υ) (WatchEvent υ)

variable {υ : Type}

namespace WatchEvent

/-- The call that looks with an event. -/
def looker? : WatchEvent υ → Option Nat
  | .calls c _ => some c
  | .looks c => some c
  | _ => none

/-- The call that begins with an event. -/
def begins? : WatchEvent υ → Option Nat
  | .calls c _ => some c
  | _ => none

end WatchEvent

namespace Watch

def call? (w : Watch υ) (c : Nat) : Option Release := w.calls.find? (·.id == c)

def onPool (w : Watch υ) (e : PoolEvent υ) : Watch υ :=
  { w with pool := ((poolSystem υ).happen w.pool e).1 }

/-- The call does not wait any longer. -/
def without (w : Watch υ) (c : Nat) : Watch υ :=
  { w with calls := w.calls.filter (·.id != c) }

/-- A call looks, and is answered or waits for its next look. -/
def look (w : Watch υ) (c : Nat) (wait : ReleaseWait) : Watch υ × Option (Except PoolError Unit) :=
  match w.pool.checkRelease wait w.now with
  | some r => (w.without c, some r)
  | none =>
    ({ w.without c with
      calls := (w.without c).calls ++ [⟨c, wait, w.now + Pool.releasePoll⟩] }, none)

/-- Let an event happen. The result is the answer to the call that looks. -/
def perform (w : Watch υ) : WatchEvent υ → Watch υ × Option (Except PoolError Unit)
  | .happens e => (w.onPool e, none)
  | .passes => ({ w with now := w.now + 1 }, none)
  | .calls c timeout =>
    match (w.pool.beginRelease w.now timeout).2 with
    | .error e => (w.onPool (.beginRelease w.now timeout), some (.error e))
    | .ok wait => (w.onPool (.beginRelease w.now timeout)).look c wait
  | .looks c =>
    match w.call? c with
    | some x => w.look c x.wait
    | none => (w, none)
  | .abandons c => (w.without c, none)

/-- What an event is to the pool. -/
def part? (w : Watch υ) : WatchEvent υ → Option (PoolEvent υ)
  | .happens e => some e
  | .calls _ timeout => some (.beginRelease w.now timeout)
  | _ => none

/-- What has happened to the pool. -/
def past (h : List (WatchOccurrence υ)) : List (Occurrence (Pool υ) (PoolEvent υ)) :=
  h.filterMap fun o => (o.before.part? o.event).map (⟨o.before.pool, ·⟩)

/-- The calls so far. -/
def begun (h : List (WatchOccurrence υ)) : List Nat := h.filterMap fun o => o.event.begins?

/-- What the outside promises about the next event: it happens when the clock says so, a look comes
when it is due, and the pool is not dropped while a call waits. -/
def allows (h : List (WatchOccurrence υ)) (w : Watch υ) : WatchEvent υ → Bool
  | .happens e => Pool.allows (past h) w.pool e && e.time?.all (· == w.now) &&
    match e with
    | .drop => w.calls.isEmpty
    | _ => true
  | .passes => w.calls.all fun x => w.now < x.next
  | .calls c timeout =>
    Pool.allows (past h) w.pool (.beginRelease w.now timeout) && !(begun h).contains c
  | .looks c => (w.call? c).any fun x => x.next ≤ w.now
  | .abandons _ => true

end Watch

/-- A pool with a clock, and releases that wait. The outside sees how they are answered. -/
def watchSystem (υ : Type) :
    System (Watch υ) (WatchEvent υ) (Option (Except PoolError Unit)) where
  starts w := (∃ capacity options p₀, Pool.new capacity options w.now = .ok p₀ ∧
    w.pool = p₀.collect.2) ∧ w.calls = []
  happen := Watch.perform
  allows := Watch.allows

namespace Watch

variable {w : Watch υ} {h pre post : List (WatchOccurrence υ)} {o : WatchOccurrence υ}
  {e : WatchEvent υ} {c d : Nat} {wait : ReleaseWait}

/-! ## What happens to the pool -/

theorem look_pool (w : Watch υ) (c : Nat) (wait : ReleaseWait) :
    (w.look c wait).1.pool = w.pool ∧ (w.look c wait).1.now = w.now := by
  unfold look
  split <;> exact ⟨rfl, rfl⟩

theorem answer_look (w : Watch υ) (c : Nat) (wait : ReleaseWait) :
    (w.look c wait).2 = w.pool.checkRelease wait w.now := by
  unfold look
  cases w.pool.checkRelease wait w.now <;> rfl

theorem pool_perform (w : Watch υ) (e : WatchEvent υ) : (w.perform e).1.pool =
    (w.part? e).elim w.pool fun e' => ((poolSystem υ).happen w.pool e').1 := by
  cases e with
  | calls c timeout =>
    simp only [perform]
    split
    · rfl
    · exact (look_pool _ c _).1
  | looks c =>
    simp only [perform]
    split
    · exact (look_pool _ c _).1
    · rfl
  | _ => rfl

theorem past_append (h : List (WatchOccurrence υ)) (w : Watch υ) (e : WatchEvent υ) :
    past (h ++ [⟨w, e⟩]) = past h ++ ((w.part? e).map (⟨w.pool, ·⟩)).toList := by
  unfold past
  rw [List.filterMap_append]
  cases he : w.part? e <;> simp [he]

theorem allows_part (hall : w.allows h e = true) {e' : PoolEvent υ} (he : w.part? e = some e') :
    Pool.allows (past h) w.pool e' = true := by
  cases e with
  | happens e =>
    obtain rfl := Option.some.inj he
    exact (Bool.and_eq_true_iff.1 (Bool.and_eq_true_iff.1 hall).1).1
  | calls c timeout =>
    obtain rfl := Option.some.inj he
    exact (Bool.and_eq_true_iff.1 hall).1
  | _ => contradiction

/-- What happens to the pool is one of its histories. -/
theorem pool_of_run (hrun : (watchSystem υ).Run h w) : (poolSystem υ).Run (past h) w.pool := by
  induction hrun with
  | start hs =>
    obtain ⟨⟨capacity, options, p₀, hnew, hpool⟩, -⟩ := hs
    exact .start ⟨capacity, options, _, p₀, hnew, hpool⟩
  | @next h w e hrun hall ih =>
    rw [past_append]
    show (poolSystem υ).Run _ (w.perform e).1.pool
    rw [pool_perform]
    cases he : w.part? e with
    | none => simpa using ih
    | some e' => simpa using ih.next (allows_part hall he)

/-! ## How a look ends -/

/-- How a look ends so many milliseconds after its call began, if everybody has gone, or else. -/
def verdict (timeout : Duration) (passed : Nat) (isOver : Bool) :
    Option (Except PoolError Unit) :=
  if isOver then some (.ok ())
  else if timeout.nanos ≤ passed * 1000000 then some (.error .timeout)
  else none

/-- Has everybody gone that a release waits for? -/
def isOver (h : List (WatchOccurrence υ)) (p : Pool υ) (s? : Option ScavengerId) : Bool :=
  p.isVacated s? && !Pool.hasMissing (past h) p s?

/-- The looks of a call. -/
def looksOf (c : Nat) (h : List (WatchOccurrence υ)) : List (WatchOccurrence υ) :=
  h.filter fun o => o.event.looker? == some c

theorem ceilMillis_le_iff (timeout : Duration) (n : Nat) :
    timeout.ceilMillis ≤ n ↔ timeout.nanos ≤ n * 1000000 := by
  unfold Duration.ceilMillis
  omega

/-- What a call that begins at an open pool waits for. -/
def waitFor (w : Watch υ) (timeout : Duration) : ReleaseWait where
  scavenger := w.pool.scavenger
  deadline := w.now + timeout.ceilMillis

theorem checkRelease_eq {p : Pool υ} {s? : Option ScavengerId} {timeout : Duration}
    {begun now : Nat} (hrun : (poolSystem υ).Run (past h) p) (hd : p.dropped = false)
    (hknown : ∀ s ∈ s?, s ∈ p.roster) (hlater : begun ≤ now) :
    p.checkRelease { scavenger := s?, deadline := begun + timeout.ceilMillis } now =
      verdict timeout (now - begun) (isOver h p s?) := by
  have hdue : begun + timeout.ceilMillis ≤ now ↔ timeout.nanos ≤ (now - begun) * 1000000 := by
    rw [← ceilMillis_le_iff]
    omega
  unfold Pool.checkRelease verdict isOver
  rw [Pool.isOver_iff hrun hd hknown]
  simp only [hdue]

/-! ## Calls that wait -/

theorem call?_without_self (w : Watch υ) (c : Nat) : (w.without c).call? c = none := by
  refine List.find?_eq_none.2 fun x hx => ?_
  have hne := (List.mem_filter.1 hx).2
  simpa using hne

theorem call?_without (w : Watch υ) {c d : Nat} (hne : d ≠ c) :
    (w.without d).call? c = w.call? c := by
  unfold call? without
  rw [List.find?_filter]
  refine congrArg (fun f => List.find? f w.calls) (funext fun x => ?_)
  by_cases hx : x.id = c
  · simp [hx, Ne.symm hne]
  · simp [hx]

/-- A call that looks is answered or waits for its next look. -/
theorem call?_look_self (w : Watch υ) (c : Nat) (wait : ReleaseWait) : (w.look c wait).1.call? c =
    if (w.look c wait).2 = none then some ⟨c, wait, w.now + Pool.releasePoll⟩ else none := by
  have hnone := call?_without_self w c
  unfold look
  cases w.pool.checkRelease wait w.now with
  | some r => simpa using hnone
  | none =>
    unfold call? at hnone ⊢
    simp [List.find?_append, hnone]

theorem call?_look (w : Watch υ) {c d : Nat} (hne : d ≠ c) (wait : ReleaseWait) :
    (w.look d wait).1.call? c = w.call? c := by
  have hothers := call?_without w hne
  unfold look
  cases w.pool.checkRelease wait w.now with
  | some r => exact hothers
  | none =>
    have hlast : [(⟨d, wait, w.now + Pool.releasePoll⟩ : Release)].find? (·.id == c) = none := by
      simpa using hne
    unfold call? at hothers ⊢
    dsimp only
    rw [List.find?_append, hlast, Option.or_none]
    exact hothers

/-- Only a call's own looks and its end change it. -/
theorem call?_perform (w : Watch υ) {e : WatchEvent υ} (hlooks : e.looker? ≠ some c)
    (hstays : e ≠ .abandons c) : (w.perform e).1.call? c = w.call? c := by
  cases e with
  | happens e => rfl
  | passes => rfl
  | calls d timeout =>
    have hne : d ≠ c := fun he => hlooks (congrArg some he)
    simp only [perform]
    split
    · rfl
    · exact call?_look _ hne _
  | looks d =>
    have hne : d ≠ c := fun he => hlooks (congrArg some he)
    simp only [perform]
    split
    · exact call?_look _ hne _
    · rfl
  | abandons d =>
    have hne : d ≠ c := fun he => hstays (congrArg _ he)
    exact call?_without w hne

theorem now_perform (w : Watch υ) (e : WatchEvent υ) : w.now ≤ (w.perform e).1.now ∧
    (e ≠ .passes → (w.perform e).1.now = w.now) := by
  cases e with
  | calls c timeout =>
    simp only [perform]
    split
    · exact ⟨Nat.le_refl _, fun _ => rfl⟩
    · rw [(look_pool _ c _).2]
      exact ⟨Nat.le_refl _, fun _ => rfl⟩
  | looks c =>
    simp only [perform]
    split
    · rw [(look_pool _ c _).2]
      exact ⟨Nat.le_refl _, fun _ => rfl⟩
    · exact ⟨Nat.le_refl _, fun _ => rfl⟩
  | passes => exact ⟨Nat.le_succ _, fun hne => absurd rfl hne⟩
  | _ => exact ⟨Nat.le_refl _, fun _ => rfl⟩

/-- The pool does not go while a call waits. -/
theorem dropped_perform (hall : w.allows h e = true) (hwaits : (w.call? c).isSome = true) :
    (w.perform e).1.pool.dropped = w.pool.dropped := by
  rw [pool_perform]
  cases he : w.part? e with
  | none => rfl
  | some e' =>
    refine Pool.dropped_perform w.pool ?_
    rintro rfl
    cases e with
    | happens e =>
      obtain rfl := Option.some.inj he
      have hempty := (Bool.and_eq_true_iff.1 hall).2
      obtain ⟨x, hx⟩ := Option.isSome_iff_exists.1 hwaits
      have hmem := List.mem_of_find?_eq_some hx
      rw [List.isEmpty_iff.1 hempty] at hmem
      cases hmem
    | _ => simp [part?] at he

/-- No scavenger leaves the roster. -/
theorem roster_perform (hrun : (watchSystem υ).Run h w) (e : WatchEvent υ) :
    w.pool.roster ⊆ (w.perform e).1.pool.roster := by
  rw [pool_perform]
  cases w.part? e with
  | none => exact fun _ hs => hs
  | some e' =>
    have hrelieves := (Pool.guarded_of_run (pool_of_run hrun)).perform e'
    exact fun s hs => hrelieves.roster hs

/-! ## The looks of one call -/

/-- A look of the call that began with `o`, when `mid` has happened since: it comes after as many
intervals as there were looks, none of which was answered, and ends as it must. -/
structure Looked (pre : List (WatchOccurrence υ)) (o : WatchOccurrence υ) (c : Nat)
    (timeout : Duration) (mid : List (WatchOccurrence υ)) (o' : WatchOccurrence υ) : Prop where
  time : o'.before.now = o.before.now + Pool.releasePoll * (looksOf c mid).length
  first : ∀ o'' ∈ looksOf c mid, (watchSystem υ).shows o'' = none
  answer : (watchSystem υ).shows o' = verdict timeout (o'.before.now - o.before.now)
    (isOver (pre ++ mid ++ [o']) ((watchSystem υ).after o').pool o.before.pool.scavenger)

/-- The call that began with `o`, when `post` has happened since: all its looks have ended as they
must, and unless it was answered or dropped, its next look is due one interval after the last. -/
structure Stands (pre : List (WatchOccurrence υ)) (o : WatchOccurrence υ) (c : Nat)
    (timeout : Duration) (post : List (WatchOccurrence υ)) (w : Watch υ) : Prop where
  known : ∀ s ∈ o.before.pool.scavenger, s ∈ w.pool.roster
  looked : ∀ mid o' rest, o :: post = mid ++ o' :: rest → o'.event.looker? = some c →
    Looked pre o c timeout mid o'
  waits : ∀ x, w.call? c = some x → w.pool.dropped = false ∧
    (∀ o' ∈ looksOf c (o :: post), (watchSystem υ).shows o' = none) ∧
    x = ⟨c, o.before.waitFor timeout,
      o.before.now + Pool.releasePoll * (looksOf c (o :: post)).length⟩ ∧ w.now ≤ x.next
  ended : w.call? c = none → (∃ o' ∈ looksOf c (o :: post), (watchSystem υ).shows o' ≠ none) ∨
    ∃ o' ∈ post, o'.event = .abandons c

theorem looksOf_append (c : Nat) (h : List (WatchOccurrence υ)) (o : WatchOccurrence υ) :
    looksOf c (h ++ [o]) = looksOf c h ++ if o.event.looker? = some c then [o] else [] := by
  unfold looksOf
  rw [List.filter_append, List.filter_singleton]
  by_cases ho : o.event.looker? = some c
  · simp [ho]
  · simp [ho, beq_eq_false_iff_ne.2 ho]

theorem split_concat {α : Type} {xs mid rest : List α} {x y : α}
    (h : xs ++ [x] = mid ++ y :: rest) :
    mid = xs ∧ y = x ∨ ∃ rest', xs = mid ++ y :: rest' := by
  rcases List.eq_nil_or_concat rest with rfl | ⟨rest', z, rfl⟩
  · obtain ⟨hmid, hy⟩ := List.append_inj' h rfl
    exact .inl ⟨hmid.symm, (List.singleton_inj.1 hy).symm⟩
  · have h' : xs ++ [x] = (mid ++ y :: rest') ++ [z] := by simpa using h
    exact .inr ⟨rest', (List.append_inj' h' rfl).1⟩

/-- A look ends as it must, and its call is answered or waits for the next. -/
theorem Stands.of_look {timeout : Duration} (mid : List (WatchOccurrence υ))
    (o' : WatchOccurrence υ) (v : Watch υ) (heq : o :: post = mid ++ [o'])
    (hlooks : o'.event.looker? = some c)
    (hlook : (watchSystem υ).happen o'.before o'.event = v.look c (o.before.waitFor timeout))
    (hnow : v.now = o'.before.now) (hd : v.pool.dropped = false)
    (hknown : ∀ s ∈ o.before.pool.scavenger, s ∈ v.pool.roster)
    (hrun : (watchSystem υ).Run (pre ++ mid ++ [o']) ((watchSystem υ).after o'))
    (htime : o'.before.now = o.before.now + Pool.releasePoll * (looksOf c mid).length)
    (hfirst : ∀ o'' ∈ looksOf c mid, (watchSystem υ).shows o'' = none)
    (hearlier : ∀ mid' o'' rest, mid = mid' ++ o'' :: rest → o''.event.looker? = some c →
      Looked pre o c timeout mid' o'') :
    Stands pre o c timeout post ((watchSystem υ).after o') := by
  have hafter : (watchSystem υ).after o' = (v.look c (o.before.waitFor timeout)).1 :=
    congrArg Prod.fst hlook
  have hshows : (watchSystem υ).shows o' = (v.look c (o.before.waitFor timeout)).2 :=
    congrArg Prod.snd hlook
  obtain ⟨hpool, hstill⟩ := look_pool v c (o.before.waitFor timeout)
  have hanswer : (watchSystem υ).shows o' = verdict timeout (o'.before.now - o.before.now)
      (isOver (pre ++ mid ++ [o']) ((watchSystem υ).after o').pool o.before.pool.scavenger) := by
    have hhistory := pool_of_run hrun
    rw [hafter, hpool] at hhistory
    have hlater : o.before.now ≤ v.now := by omega
    rw [hshows, answer_look, waitFor, checkRelease_eq hhistory hd hknown hlater, hafter, hpool,
      hnow]
  have hlooksOf : looksOf c (o :: post) = looksOf c mid ++ [o'] := by
    rw [heq, looksOf_append, if_pos hlooks]
  refine ⟨?_, fun mid' o'' rest hsplit hlooks' => ?_, fun x hx => ?_, fun hnone => ?_⟩
  · rw [hafter, hpool]
    exact hknown
  · rw [heq] at hsplit
    rcases split_concat hsplit with ⟨rfl, rfl⟩ | ⟨rest', hmid⟩
    · exact ⟨htime, hfirst, hanswer⟩
    · exact hearlier mid' o'' rest' hmid hlooks'
  · rw [hafter, call?_look_self] at hx
    split at hx
    · rename_i hwaits
      obtain rfl := Option.some.inj hx
      refine ⟨?_, ?_, ?_, ?_⟩
      · rw [hafter, hpool]
        exact hd
      · intro o'' ho''
        rw [hlooksOf] at ho''
        rcases List.mem_append.1 ho'' with ho'' | ho''
        · exact hfirst o'' ho''
        · rw [List.mem_singleton.1 ho'', hshows, hwaits]
      · rw [hlooksOf, List.length_append, List.length_singleton, Nat.mul_succ,
          ← Nat.add_assoc, ← htime, hnow]
      · rw [hafter, hstill]
        exact Nat.le_add_right _ _
    · contradiction
  · rw [hafter, call?_look_self] at hnone
    split at hnone
    · contradiction
    · rename_i hanswered
      refine .inl ⟨o', ?_, fun hshown => hanswered (hshows.symm.trans hshown)⟩
      rw [hlooksOf]
      exact List.mem_append_right _ (List.mem_singleton_self _)

/-- A call whose turn it is not stays as it is, or is dropped. -/
theorem Stands.other {timeout : Duration} (hs : Stands pre o c timeout post w)
    (hrun : (watchSystem υ).Run (pre ++ o :: post) w)
    (hall : w.allows (pre ++ o :: post) e = true) (hlooks : e.looker? ≠ some c) :
    Stands pre o c timeout (post ++ [⟨w, e⟩]) (w.perform e).1 := by
  have hlooksOf : looksOf c (o :: (post ++ [⟨w, e⟩])) = looksOf c (o :: post) := by
    rw [← List.cons_append, looksOf_append, if_neg hlooks, List.append_nil]
  by_cases hstays : e = .abandons c
  · subst hstays
    have hnone : (w.perform (.abandons c)).1.call? c = none := call?_without_self w c
    exact {
      known := hs.known
      looked := fun mid o' rest hsplit hlooks' => by
        rw [← List.cons_append] at hsplit
        rcases split_concat hsplit with ⟨rfl, rfl⟩ | ⟨rest', hmid⟩
        · exact absurd hlooks' hlooks
        · exact hs.looked mid o' rest' hmid hlooks'
      waits := fun x hx => by simp [hnone] at hx
      ended := fun _ => .inr ⟨_, List.mem_append_right _ (List.mem_singleton_self _), rfl⟩ }
  · have hsame := call?_perform w hlooks hstays
    refine ⟨fun s hmem => roster_perform hrun e (hs.known s hmem),
      fun mid o' rest hsplit hlooks' => ?_, fun x hx => ?_, fun hnone => ?_⟩
    · rw [← List.cons_append] at hsplit
      rcases split_concat hsplit with ⟨rfl, rfl⟩ | ⟨rest', hmid⟩
      · exact absurd hlooks' hlooks
      · exact hs.looked mid o' rest' hmid hlooks'
    · rw [hsame] at hx
      obtain ⟨hd, hnone, hcall, hnow⟩ := hs.waits x hx
      rw [hlooksOf]
      have hwaits : (w.call? c).isSome = true := by rw [hx, Option.isSome_some]
      refine ⟨(dropped_perform hall hwaits).trans hd, hnone, hcall, ?_⟩
      by_cases hpasses : e = .passes
      · subst hpasses
        have hbefore := List.all_eq_true.1 hall x (List.mem_of_find?_eq_some hx)
        exact Nat.succ_le_of_lt (of_decide_eq_true hbefore)
      · rw [(now_perform w e).2 hpasses]
        exact hnow
    · rw [hsame] at hnone
      rw [hlooksOf]
      refine (hs.ended hnone).imp_right ?_
      rintro ⟨o', ho', he⟩
      exact ⟨o', List.mem_append_left _ ho', he⟩

/-- A call that looks does so when its look is due. -/
theorem Stands.looks {timeout : Duration} (hs : Stands pre o c timeout post w)
    (hrun : (watchSystem υ).Run (pre ++ o :: post) w)
    (hall : w.allows (pre ++ o :: post) (.looks c) = true) :
    Stands pre o c timeout (post ++ [⟨w, .looks c⟩]) (w.perform (.looks c)).1 := by
  obtain ⟨x, hx, hdue⟩ := (Option.any_eq_true _ _).1 hall
  obtain ⟨hd, hnone, rfl, hnow⟩ := hs.waits x hx
  have hdue := of_decide_eq_true hdue
  refine Stands.of_look (o :: post) ⟨w, .looks c⟩ w rfl rfl ?_ rfl hd hs.known ?_
    (Nat.le_antisymm hnow hdue) hnone hs.looked
  · show w.perform (.looks c) = _
    simp only [perform, hx]
  · rw [List.append_assoc, List.cons_append]
    exact List.append_assoc pre (o :: post) _ ▸ hrun.next hall

section Calls

variable {timeout : Duration}

end Calls

end Watch

end Overseer
