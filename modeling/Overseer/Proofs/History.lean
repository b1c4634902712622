/-!
# Histories

A `System` is a state that events happen to, one at a time. What the outside promises about an
event may depend on everything that happened before (`allows`): that a unit ends only while it
runs, for instance, or that no two calls go by one number. `S.Run h s` says that the events of
`h`, each together with the state that it found, have led from a start to `s`, so a statement
about every run is one about every order of events, of any length.

`replay` carries out a list of events as far as they are allowed. It makes closed runs out of
lists (`Run.of_replay`).
-/

namespace Overseer

variable {σ ε ρ : Type}

/-- An event, and the state that it found. -/
structure Occurrence (σ ε : Type) where
  before : σ
  event : ε

/-- A state that events happen to. -/
structure System (σ ε ρ : Type) where
  starts : σ → Prop
  /-- The state after an event, and what the outside sees of it. -/
  happen : σ → ε → σ × ρ
  /-- What the outside promises about the next event. -/
  allows : List (Occurrence σ ε) → σ → ε → Bool

namespace System

variable (S : System σ ε ρ)

/-- The state that an occurrence leaves. -/
def after (o : Occurrence σ ε) : σ := (S.happen o.before o.event).1

/-- What the outside sees of an occurrence. -/
def shows (o : Occurrence σ ε) : ρ := (S.happen o.before o.event).2

/-- The occurrences of `h` have led from a start to the state. -/
inductive Run : List (Occurrence σ ε) → σ → Prop
  | start {s : σ} : S.starts s → Run [] s
  | next {h : List (Occurrence σ ε)} {s : σ} {e : ε} : Run h s → S.allows h s e = true →
      Run (h ++ [⟨s, e⟩]) (S.happen s e).1

variable {S}

/-- An occurrence of a run found the state to which the run had come, and was allowed. -/
theorem Run.split {h : List (Occurrence σ ε)} {s : σ} (hrun : S.Run h s) :
    ∀ {pre post : List (Occurrence σ ε)} {o : Occurrence σ ε}, h = pre ++ o :: post →
      S.Run pre o.before ∧ S.allows pre o.before o.event = true ∧
        S.Run (pre ++ [o]) (S.after o) := by
  induction hrun with
  | start _ => intro pre post o h; simp at h
  | @next h s e hrun hall ih =>
    intro pre post o heq
    rcases List.eq_nil_or_concat post with rfl | ⟨post, o', rfl⟩
    · obtain ⟨rfl, ho⟩ := List.append_inj' heq rfl
      obtain rfl := List.singleton_inj.1 ho
      exact ⟨hrun, hall, hrun.next hall⟩
    · have heq' : h ++ [⟨s, e⟩] = (pre ++ o :: post) ++ [o'] := by simpa using heq
      exact ih (List.append_inj' heq' rfl).1

/-- Every occurrence of a run has a run before it. -/
theorem Run.of_mem {h : List (Occurrence σ ε)} {s : σ} (hrun : S.Run h s)
    {o : Occurrence σ ε} (ho : o ∈ h) : ∃ pre, S.Run pre o.before ∧
      S.allows pre o.before o.event = true ∧ S.Run (pre ++ [o]) (S.after o) := by
  obtain ⟨pre, post, rfl⟩ := List.append_of_mem ho
  exact ⟨pre, hrun.split rfl⟩

/-- What holds after an occurrence, and is kept by every event, holds from then on. -/
theorem Run.since {h : List (Occurrence σ ε)} {s : σ} (hrun : S.Run h s)
    {pre : List (Occurrence σ ε)} {o : Occurrence σ ε} {P : List (Occurrence σ ε) → σ → Prop}
    (base : P [] (S.after o))
    (step : ∀ post s e, S.Run (pre ++ o :: post) s → S.allows (pre ++ o :: post) s e = true →
      P post s → P (post ++ [⟨s, e⟩]) (S.happen s e).1) :
    ∀ {post : List (Occurrence σ ε)}, h = pre ++ o :: post → P post s := by
  induction hrun with
  | start _ => intro post heq; simp at heq
  | @next h s e hrun hall ih =>
    intro post heq
    rcases List.eq_nil_or_concat post with rfl | ⟨post, o', rfl⟩
    · obtain ⟨-, ho⟩ := List.append_inj' heq rfl
      obtain rfl := List.singleton_inj.1 ho
      exact base
    · have heq' : h ++ [⟨s, e⟩] = (pre ++ o :: post) ++ [o'] := by simpa using heq
      obtain ⟨rfl, ho'⟩ := List.append_inj' heq' rfl
      obtain rfl := List.singleton_inj.1 ho'
      rw [List.concat_eq_append]
      exact step post s e hrun hall (ih rfl)

/-- The state to which a run has come is a matter of its start and of its events. -/
theorem Run.eq_foldl {h : List (Occurrence σ ε)} {s : σ} (hrun : S.Run h s) :
    ∃ s₀, S.starts s₀ ∧ (∀ o ∈ h.head?, o.before = s₀) ∧
      s = (h.map (·.event)).foldl (fun s e => (S.happen s e).1) s₀ := by
  induction hrun with
  | @start s hstart => exact ⟨s, hstart, nofun, rfl⟩
  | @next h s e _ _ ih =>
    obtain ⟨s₀, hstart, hfirst, hlast⟩ := ih
    refine ⟨s₀, hstart, fun o ho => ?_, ?_⟩
    · cases h with
      | nil =>
        obtain rfl := Option.some.inj ho
        exact hlast
      | cons x h => exact hfirst o ho
    · rw [List.map_append, List.foldl_append, ← hlast]
      rfl

/-- Carry out events from a state that has a history, as far as they are allowed. -/
def replay (S : System σ ε ρ) (h : List (Occurrence σ ε)) (s : σ) :
    List ε → Option (List (Occurrence σ ε) × σ)
  | [] => some (h, s)
  | e :: es =>
    if S.allows h s e then S.replay (h ++ [⟨s, e⟩]) (S.happen s e).1 es else none

theorem Run.of_replay {es : List ε} :
    ∀ {h h' : List (Occurrence σ ε)} {s s' : σ}, S.Run h s →
      S.replay h s es = some (h', s') → S.Run h' s' := by
  induction es with
  | nil =>
    intro h h' s s' hrun heq
    obtain ⟨rfl, rfl⟩ := Prod.mk.inj (Option.some.inj heq)
    exact hrun
  | cons e es ih =>
    intro h h' s s' hrun heq
    unfold replay at heq
    split at heq
    · rename_i hall
      exact ih (hrun.next hall) heq
    · contradiction

theorem events_of_replay {es : List ε} :
    ∀ {h h' : List (Occurrence σ ε)} {s s' : σ}, S.replay h s es = some (h', s') →
      h'.map (·.event) = h.map (·.event) ++ es := by
  induction es with
  | nil =>
    intro h h' s s' heq
    obtain ⟨rfl, -⟩ := Prod.mk.inj (Option.some.inj heq)
    exact (List.append_nil _).symm
  | cons e es ih =>
    intro h h' s s' heq
    unfold replay at heq
    split at heq
    · rw [ih heq, List.map_append, List.append_assoc]
      rfl
    · contradiction

/-- If a list of events can be carried out from a start and ends as `check` asks, there is a run
that does. -/
theorem exists_run_of_replay {s₀ : σ} (hs : S.starts s₀) (es : List ε)
    (check : List (Occurrence σ ε) → σ → Bool)
    (h : (S.replay [] s₀ es).any (fun x => check x.1 x.2) = true) :
    ∃ h s, S.Run h s ∧ check h s = true := by
  obtain ⟨x, hx, hc⟩ := (Option.any_eq_true _ _).1 h
  exact ⟨x.1, x.2, (Run.start hs).of_replay hx, hc⟩

end System

/-- Does a list pass a check at its place `n`? The check also sees what comes before and after. -/
def passesAt {α : Type} (n : Nat) (check : List α → α → List α → Bool) (xs : List α) : Bool :=
  match xs.drop n with
  | x :: post => check (xs.take n) x post
  | [] => false

theorem exists_of_passesAt {α : Type} {n : Nat} {check : List α → α → List α → Bool} {xs : List α}
    (h : passesAt n check xs = true) :
    ∃ pre x post, xs = pre ++ x :: post ∧ check pre x post = true := by
  unfold passesAt at h
  split at h
  · rename_i x post hdrop
    exact ⟨xs.take n, x, post, hdrop ▸ (List.take_append_drop n xs).symm, h⟩
  · contradiction

end Overseer
