import Overseer.Proofs.Supervision.Bare
import Overseer.Proofs.Supervision.Hearing

/-!
# Failures stay with the task that fails

Two runs of a set are compared that may differ in all that a task `a` does since the set has
started, and in its callback and its pool. Everything else is made by an outside that chooses each
cue for what was seen of the other tasks before (`Follows`). It stands for their code, for whoever
registers and unregisters them, for the clock and for the scheduler.

Scenes that are told the same of the positions that `a` holds come to the same
(`agree_foldl_turn`), and a set does what its scene does (`Plays`). So in both runs the same happens
to the other tasks, they are registered at the same times, and what may happen next in one may
happen next in the other (`isolation_of_run`).

Positions are the one thing by which `a` can be noticed. A stage holds its position until it fails,
so that whoever asks for it meanwhile is refused, and whoever asks for it afterwards is not
(`position_of_failed`).
-/

namespace Overseer

variable {κ ξ : Type}

/-! ## Outsides that know nothing of a task -/

/-- What becomes known with a cue. -/
structure Sight (κ ξ : Type) where
  cue : Cue κ ξ
  /-- What comes of it, such as a run or an `init` that starts. -/
  answer : SetAnswer κ
  /-- What the set is to the other tasks then. -/
  scene : Scene κ ξ

/-- Every cue is the one that is chosen for what was seen before it. -/
def Follows (D : List (Sight κ ξ) → Cue κ ξ) (xs : List (Sight κ ξ)) : Prop :=
  ∀ pre x post, xs = pre ++ x :: post → x.cue = D pre

/-- One list goes on where the other one ends. -/
def Agree {α : Type} (xs ys : List α) : Prop := List.IsPrefix xs ys ∨ List.IsPrefix ys xs

theorem Agree.eq_of_length {α : Type} {xs ys : List α} (h : Agree xs ys)
    (hlen : xs.length = ys.length) : xs = ys :=
  h.elim (·.eq_of_length hlen) fun h => (h.eq_of_length hlen.symm).symm

theorem Follows.left {D : List (Sight κ ξ) → Cue κ ξ} {xs ys : List (Sight κ ξ)}
    (h : Follows D (xs ++ ys)) : Follows D xs :=
  fun pre x post heq => h pre x (post ++ ys) (by simp [heq])

theorem Follows.last {D : List (Sight κ ξ) → Cue κ ξ} {xs : List (Sight κ ξ)} {x : Sight κ ξ}
    (h : Follows D (xs ++ [x])) : x.cue = D xs :=
  h xs x [] rfl

/-- An outside that goes by a script looks at nothing but how many cues there were. -/
theorem follows_of_script {script : List (Cue κ ξ)} {xs : List (Sight κ ξ)}
    (h : xs.map (·.cue) = script) :
    Follows (fun ys => script.getD ys.length .cancelRoot) xs := by
  rintro pre x post rfl
  simp [← h]

/-- What a scene comes to with the next cue, and with what has been seen. -/
def Scene.turn (D : List (Sight κ ξ) → Cue κ ξ) (x : Scene κ ξ × List (Sight κ ξ)) (held : Bool) :
    Scene κ ξ × List (Sight κ ξ) :=
  let r := x.1.hear held (D x.2)
  ({ r.1 with left := [] }, x.2 ++ [⟨D x.2, r.2, r.1⟩])

theorem Scene.prefix_foldl_turn (D : List (Sight κ ξ) → Cue κ ξ) (bs : List Bool) :
    ∀ x : Scene κ ξ × List (Sight κ ξ), List.IsPrefix x.2 (bs.foldl (Scene.turn D) x).2 := by
  induction bs with
  | nil => exact fun x => List.prefix_refl _
  | cons b bs ih => exact fun x => (List.prefix_append x.2 _).trans (ih (Scene.turn D x b))

/-- What is seen depends on nothing but the scene at the start, and what is told of positions. -/
theorem Scene.agree_foldl_turn (D : List (Sight κ ξ) → Cue κ ξ) (v : Scene κ ξ) {bs bs' : List Bool}
    (h : Agree bs bs') :
    Agree (bs.foldl (Scene.turn D) (v, [])).2 (bs'.foldl (Scene.turn D) (v, [])).2 := by
  rcases h with ⟨cs, rfl⟩ | ⟨cs, rfl⟩
  · rw [List.foldl_append]
    exact .inl (Scene.prefix_foldl_turn D cs _)
  · rw [List.foldl_append]
    exact .inr (Scene.prefix_foldl_turn D cs _)

/-! ## What happens to a task -/

/-- What happens to a task. -/
inductive Happening where
  /-- A run of the task starts. -/
  | runs (now : Nat)
  /-- The `init` of the task is called. -/
  | inits (args : List Argument)
  /-- The `destroy` of the task is called. -/
  | isDestroyed
  deriving DecidableEq

/-- The time at which a loop gets its turn. -/
def SetEvent.now : SetEvent κ ξ → Nat
  | .pollLoop _ now => now
  | _ => 0

def Cue.now : Cue κ ξ → Nat
  | .poll _ now => now
  | _ => 0

/-- What is done with the task `b` at that time. -/
def SetAnswer.happenings (b : TaskId) (now : Nat) : SetAnswer κ → List Happening
  | .loop (.run task) => if task.id = b then [.runs now] else []
  | .call (.callInit task args) => if task.id = b then [.inits args] else []
  | _ => []

/-- The `destroy` calls of `b` among those of all tasks. -/
def destroyed (b : TaskId) (torn : List TaskRef) : List Happening :=
  (torn.filter (·.id == b)).map fun _ => .isDestroyed

/-- What is seen to happen to the task `b`. -/
def Sight.happenings (b : TaskId) (x : Sight κ ξ) : List Happening :=
  x.answer.happenings b x.cue.now ++ destroyed b x.scene.left

theorem SetAnswer.happenings_eq_nil {a b : TaskId} (hb : b ≠ a) {answer : SetAnswer κ}
    (h : ∀ task, answer.task? = some task → task.id = a) (now : Nat) :
    answer.happenings b now = [] := by
  cases answer with
  | loop turn =>
    cases turn with
    | run task => exact if_neg fun hid => hb (hid.symm.trans (h task rfl))
    | _ => rfl
  | call turn =>
    cases turn with
    | callInit task args => exact if_neg fun hid => hb (hid.symm.trans (h task rfl))
    | _ => rfl
  | _ => rfl

/-- What `a` has to do with it does not matter to `b`. -/
theorem destroyed_filter {a b : TaskId} (hb : b ≠ a) (torn : List TaskRef) :
    destroyed b (torn.filter (·.id != a)) = destroyed b torn := by
  unfold destroyed
  rw [List.filter_filter]
  congr 2
  funext task
  by_cases hid : task.id = b <;> simp [hid, hb]

/-- The call that a cue begins. -/
def Cue.ticket? : Cue κ ξ → Option CallId
  | .register c _ _ _ _ _ => some c
  | _ => none

namespace TaskSet

variable {a : TaskId} {s s' t t' : TaskSet κ ξ} {o o' : SetOccurrence κ ξ}
  {h h' pre pre' p p' : List (SetOccurrence κ ξ)} {e : SetEvent κ ξ} {q : Cue κ ξ}
  {D : List (Sight κ ξ) → Cue κ ξ}

/-- What becomes known with an occurrence, if it is a cue. -/
def sight? (a : TaskId) (o : SetOccurrence κ ξ) : Option (Sight κ ξ) :=
  (o.before.cue? a o.event).map fun q =>
    ⟨q, (o.before.perform o.event).2, (o.before.perform o.event).1.scene a⟩

/-- What becomes known with the cues of a history. -/
def sights (a : TaskId) (h : List (SetOccurrence κ ξ)) : List (Sight κ ξ) := h.filterMap (sight? a)

/-- Does `a` hold the position for which a registration asks, at each cue? -/
def holdings (a : TaskId) (h : List (SetOccurrence κ ξ)) : List Bool :=
  h.filterMap fun o => (o.before.cue? a o.event).map fun _ => o.before.isHeld a o.event

theorem length_holdings (a : TaskId) (h : List (SetOccurrence κ ξ)) :
    (holdings a h).length = (sights a h).length := by
  unfold holdings sights sight?
  simp only [List.length_filterMap_eq_countP, Option.isSome_map]

theorem left_of_silent (hs : s.notices = []) (a : TaskId) : (s.scene a).left = [] := by
  simp [scene, tornDown, hs]

/-- The set is at work, and has come to where its scene has come on its own. -/
structure Plays (a : TaskId) (D : List (Sight κ ξ) → Cue κ ξ) (v : Scene κ ξ)
    (p : List (SetOccurrence κ ξ)) (s : TaskSet κ ξ) : Prop where
  started : s.lifecycle = .started
  undropped : s.dropped = false
  scene : (s.scene a, sights a p) = (holdings a p).foldl (Scene.turn D) (v, [])
  heedless : ∀ x ∈ p, x.before.cue? a x.event = none → IsHeedless a x.before x.event

theorem Plays.next {v : Scene κ ξ} (hk : Plays a D v p s) (hrun : (setSystem κ ξ).Run h s)
    (hall : allows h s e = true) (he : e.isSparing = true)
    (hD : Follows D (sights a (p ++ [⟨s, e⟩]))) :
    Plays a D v (p ++ [⟨s, e⟩]) ((setSystem κ ξ).happen s e).1 := by
  have hs := atWork_of_run hrun hk.started hk.undropped
  obtain ⟨hl, hd⟩ := hs.perform hall he
  have hafter : ((setSystem κ ξ).happen s e).1.scene a =
      { (s.perform e).1.scene a with left := [] } := rfl
  cases hq : s.cue? a e with
  | none =>
    have hno := heedless_of_perform hrun hs hall he hq
    have hsights : sights a (p ++ [⟨s, e⟩]) = sights a p := by
      simp [sights, sight?, hq]
    have hholdings : holdings a (p ++ [⟨s, e⟩]) = holdings a p := by
      simp [holdings, hq]
    refine ⟨hl, hd, ?_, fun x hx hx' => ?_⟩
    · rw [hsights, hholdings, ← hk.scene, hafter, hno.1, ← left_of_silent hs.silent a]
    · rcases List.mem_append.1 hx with hx | hx
      · exact hk.heedless x hx hx'
      · obtain rfl := List.mem_singleton.1 hx
        exact hno
  | some q =>
    have hhears := hears_of_perform hrun hs hall hq
    have hsights : sights a (p ++ [⟨s, e⟩]) =
        sights a p ++ [⟨q, (s.perform e).2, (s.perform e).1.scene a⟩] := by
      simp [sights, sight?, hq]
    have hholdings : holdings a (p ++ [⟨s, e⟩]) = holdings a p ++ [s.isHeld a e] := by
      simp [holdings, hq]
    rw [hsights] at hD
    obtain rfl : q = D (sights a p) := hD.last
    refine ⟨hl, hd, ?_, fun x hx hx' => ?_⟩
    · rw [hsights, hholdings, List.foldl_append, ← hk.scene, hafter]
      show _ = Scene.turn D _ _
      unfold Scene.turn
      rw [← hhears]
    · rcases List.mem_append.1 hx with hx | hx
      · exact hk.heedless x hx hx'
      · obtain rfl := List.mem_singleton.1 hx
        exact absurd (hq.symm.trans hx') (Option.some_ne_none _)

/-- The cue may come next. -/
def IsReady (a : TaskId) (h : List (SetOccurrence κ ξ)) (s : TaskSet κ ξ) (q : Cue κ ξ) : Prop :=
  ∃ e, allows h s e = true ∧ s.cue? a e = some q

/-- A loop of the scene is one of the set. -/
theorem exists_seenLoop? (hs : AtWork (begun h) s) (hs' : AtWork (begun h') s')
    (hv : s.scene a = s'.scene a) {l : LoopId} {x : Loop} (hx : s.seenLoop? a l = some x) :
    ∃ x', s'.seenLoop? a x'.id = some x' ∧ x' ∈ s'.loops ∧ x'.ticket = x.ticket ∧
      x'.phase = x.phase := by
  obtain ⟨-, -, -, hloop⟩ := seenLoop?_eq_some hs.sole hx
  rw [hv] at hloop
  obtain ⟨x', hx', hsame⟩ := Option.map_eq_some_iff.1 hloop
  obtain ⟨hmem, hticket, hseen⟩ := (seen_eq_some hs'.sole).1 hx'
  have hphase : x'.unnumbered.phase = x.unnumbered.phase := congrArg Loop.phase hsame
  refine ⟨x', ?_, hmem, hticket, hphase⟩
  unfold seenLoop?
  rw [loop?_of_mem hs'.sound.loopIds hmem, Option.filter_some, if_pos hseen]

/-- What may come next depends on nothing but the scene, and on which calls there were. -/
theorem IsReady.of_scene (hr : IsReady a h s q) (hs : AtWork (begun h) s)
    (hs' : AtWork (begun h') s') (hv : s.scene a = s'.scene a)
    (hnew : ∀ c, q.ticket? = some c → c ∉ begun h') : IsReady a h' s' q := by
  obtain ⟨e, hall, hq⟩ := hr
  have harriving : s'.arriving a = s.arriving a := (congrArg Scene.arriving hv).symm
  cases e with
  | begin c request b =>
    cases request with
    | register task args options order extra =>
      unfold cue? at hq
      dsimp only at hq
      split at hq
      · contradiction
      · rename_i hid
        obtain rfl := Option.some.inj hq
        exact ⟨.begin c (.register task args options order extra) b,
          allows_begin.2 ⟨hs'.undropped, hnew c rfl⟩, if_neg hid⟩
    | _ => contradiction
  | initialized c result b =>
    refine ⟨.initialized c result b, rfl, ?_⟩
    unfold cue? at hq ⊢
    rwa [harriving]
  | abandon c =>
    refine ⟨.abandon c, rfl, ?_⟩
    unfold cue? at hq ⊢
    rwa [harriving]
  | unregister task => exact ⟨.unregister task, by simp [allows, hs'.undropped], hq⟩
  | pollLoop l now =>
    obtain ⟨x, hx, rfl⟩ := Option.map_eq_some_iff.1 hq
    obtain ⟨x', hx', -, hticket, -⟩ := exists_seenLoop? hs hs' hv hx
    exact ⟨.pollLoop x'.id now, rfl, by simp only [cue?, hx', Option.map_some, hticket]⟩
  | ran l now ending =>
    obtain ⟨x, hx, rfl⟩ := Option.map_eq_some_iff.1 hq
    obtain ⟨x', hx', hmem, hticket, hphase⟩ := exists_seenLoop? hs hs' hv hx
    refine ⟨.ran x'.id now ending, allows_ran.2 ⟨x', hmem, rfl, hphase.trans ?_⟩,
      by simp only [cue?, hx', Option.map_some, hticket]⟩
    obtain ⟨y, hy, rfl, hrunning⟩ := allows_ran.1 hall
    obtain ⟨hfound, -⟩ := seenLoop?_eq_some hs.sole hx
    obtain rfl := Option.some.inj ((loop?_of_mem hs.sound.loopIds hy).symm.trans hfound)
    exact hrunning
  | killLoop l =>
    obtain ⟨x, hx, rfl⟩ := Option.map_eq_some_iff.1 hq
    obtain ⟨x', hx', -, hticket, -⟩ := exists_seenLoop? hs hs' hv hx
    exact ⟨.killLoop x'.id, rfl, by simp only [cue?, hx', Option.map_some, hticket]⟩
  | cancelRoot => exact ⟨.cancelRoot, rfl, hq⟩
  | _ => contradiction

/-- What happens to the task `b` with an occurrence. -/
def happenings (b : TaskId) (o : SetOccurrence κ ξ) : List Happening :=
  (o.before.perform o.event).2.happenings b o.event.now ++ destroyed b (tearsDown o)

theorem now_of_cue? (hq : s.cue? a e = some q) : q.now = e.now := by
  cases e with
  | begin c request b =>
    cases request with
    | register task args options order extra =>
      unfold cue? at hq
      dsimp only at hq
      split at hq
      · contradiction
      · obtain rfl := Option.some.inj hq
        rfl
    | _ => contradiction
  | unregister task =>
    unfold cue? at hq
    dsimp only at hq
    split at hq
    · contradiction
    · obtain rfl := Option.some.inj hq
      rfl
  | cancelRoot =>
    obtain rfl := Option.some.inj hq
    rfl
  | initialized | abandon | pollLoop | ran | killLoop =>
    obtain ⟨_, -, rfl⟩ := Option.map_eq_some_iff.1 hq
    rfl
  | _ => contradiction

/-- Whatever happens to another task is seen. -/
theorem happenings_eq {b : TaskId} (hb : b ≠ a) (hs : o.before.notices = [])
    (hno : o.before.cue? a o.event = none → IsHeedless a o.before o.event) :
    happenings b o = (sight? a o).toList.flatMap (Sight.happenings b) := by
  have hleft : destroyed b ((o.before.perform o.event).1.scene a).left =
      destroyed b (tearsDown o) := destroyed_filter hb _
  unfold happenings sight?
  cases hq : o.before.cue? a o.event with
  | none =>
    obtain ⟨hscene, hturn⟩ := hno hq
    rw [← hleft, hscene, left_of_silent hs, SetAnswer.happenings_eq_nil hb hturn]
    rfl
  | some q =>
    rw [← hleft, ← now_of_cue? hq]
    exact (List.append_nil _).symm

theorem flatMap_happenings {b : TaskId} (hb : b ≠ a) (hs : ∀ x ∈ p, x.before.notices = [])
    (hno : ∀ x ∈ p, x.before.cue? a x.event = none → IsHeedless a x.before x.event) :
    p.flatMap (happenings b) = (sights a p).flatMap (Sight.happenings b) := by
  induction p with
  | nil => rfl
  | cons x p ih =>
    have hrest := ih (fun y hy => hs y (List.mem_cons_of_mem x hy))
      fun y hy => hno y (List.mem_cons_of_mem x hy)
    have hsplit : sights a (x :: p) = (sight? a x).toList ++ sights a p := by
      unfold sights
      rw [List.filterMap_cons]
      cases sight? a x <;> rfl
    rw [List.flatMap_cons, hsplit, List.flatMap_append, hrest,
      happenings_eq hb (hs x List.mem_cons_self) (hno x List.mem_cons_self)]

/-- The set starts with the last of these occurrences. -/
def StartsWith (h : List (SetOccurrence κ ξ)) (s : TaskSet κ ξ) : Prop :=
  (∀ x ∈ h, x.before.lifecycle ≠ .started) ∧ s.lifecycle = .started

theorem dropped_of_run (hrun : (setSystem κ ξ).Run h s)
    (hspared : ∀ x ∈ h, x.event.isSparing = true) : s.dropped = false := by
  induction hrun with
  | start hstart =>
    obtain ⟨name, pool, rfl⟩ := hstart
    rfl
  | @next h s e hrun hall ih =>
    have hno : e ≠ .drop := by
      rintro rfl
      simpa [SetEvent.isSparing] using hspared ⟨s, .drop⟩ (by simp)
    have hkept := dropped_of_perform (sound_of_run hrun) hall hno
    exact hkept.trans (ih fun x hx => hspared x (List.mem_append_left _ hx))

theorem silent_of_run (hrun : (setSystem κ ξ).Run (pre ++ o :: p) s) :
    ∀ x ∈ p, x.before.notices = [] := by
  intro x hx
  obtain ⟨pre', hpre, -, -⟩ := hrun.of_mem (List.mem_append_right _ (List.mem_cons_of_mem o hx))
  exact notices_of_run hpre

theorem plays_of_run (hrun : (setSystem κ ξ).Run h s) (heq : h = pre ++ o :: p)
    (hl : ((setSystem κ ξ).after o).lifecycle = .started)
    (hspared : ∀ x ∈ pre ++ o :: p, x.event.isSparing = true) (hD : Follows D (sights a p)) :
    Plays a D (((setSystem κ ξ).after o).scene a) p s := by
  have hstart := (hrun.split heq).2.2
  have hundropped : ((setSystem κ ξ).after o).dropped = false :=
    dropped_of_run hstart fun x hx => hspared x (by simp at hx ⊢; tauto)
  refine hrun.since (P := fun p s => (∀ x ∈ pre ++ o :: p, x.event.isSparing = true) →
    Follows D (sights a p) → Plays a D (((setSystem κ ξ).after o).scene a) p s) ?_ ?_ heq hspared hD
  · exact fun _ _ => ⟨hl, hundropped, rfl, fun x hx => absurd hx List.not_mem_nil⟩
  · intro post s e hrun hall ih hspared hD
    have hD' : Follows D (sights a post) := by
      unfold sights at hD
      rw [List.filterMap_append] at hD
      exact hD.left
    have hspared' : ∀ x ∈ pre ++ o :: post, x.event.isSparing = true := fun x hx =>
      hspared x (by simp at hx ⊢; tauto)
    exact (ih hspared' hD').next hrun hall (hspared ⟨s, e⟩ (by simp)) hD

/-! ## Runs of scripts -/

/-- The set starts with `o`. Since then these are the cues for the tasks other than 0, whether 0
holds the position asked for at each, and what happens to the task 1. -/
def Played (pre : List (SetOccurrence Unit Unit)) (o : SetOccurrence Unit Unit)
    (p : List (SetOccurrence Unit Unit)) (script : List (Cue Unit Unit)) (held : List Bool)
    (done : List Happening) : Prop :=
  (pre ++ [o]).head?.map (fun o => (o.before.name, o.before.pool)) = some ("s", none) ∧
    (∀ x ∈ pre ++ [o], x.before.lifecycle ≠ .started) ∧
    ((setSystem Unit Unit).after o).lifecycle = .started ∧
    (∀ x ∈ pre ++ o :: p, x.event.isSparing = true) ∧
    (sights 0 p).map (·.cue) = script ∧ holdings 0 p = held ∧ p.flatMap (happenings 1) = done

instance (pre : List (SetOccurrence Unit Unit)) (o : SetOccurrence Unit Unit)
    (p : List (SetOccurrence Unit Unit)) (script : List (Cue Unit Unit)) (held : List Bool)
    (done : List Happening) : Decidable (Played pre o p script held done) :=
  inferInstanceAs (Decidable (_ ∧ _))

/-- If the set starts with the event at `n`, there is such a run. -/
theorem exists_played (n : Nat) (es : List (SetEvent Unit Unit)) (script : List (Cue Unit Unit))
    (held : List Bool) (done : List Happening)
    (hes : ((setSystem Unit Unit).replay [] { name := "s" } es).any (fun x => (x.1[n]?).any
      fun o => decide (Played (x.1.take n) o (x.1.drop (n + 1)) script held done)) = true) :
    ∃ pre o p s, (setSystem Unit Unit).Run (pre ++ o :: p) s ∧
      (pre ++ [o]).map (·.event) = es.take (n + 1) ∧ Played pre o p script held done := by
  obtain ⟨⟨h, s⟩, hreplay, hplayed⟩ := (Option.any_eq_true _ _).1 hes
  obtain ⟨o, ho, hplayed⟩ := (Option.any_eq_true _ _).1 hplayed
  obtain ⟨hi, rfl⟩ := List.getElem?_eq_some_iff.1 ho
  have hrun := (System.Run.start (starts_new "s" none)).of_replay hreplay
  refine ⟨h.take n, h[n], h.drop (n + 1), s, ?_, ?_, of_decide_eq_true hplayed⟩
  · rwa [List.getElem_cons_drop, List.take_append_drop]
  · rw [List.take_append_getElem hi, List.map_take, System.events_of_replay hreplay]
    rfl

theorem map_bare (a : TaskId) (h : List (SetOccurrence κ ξ)) :
    h.map (·.event.bare a) = (h.map (·.event)).map (SetEvent.bare a) := by
  rw [List.map_map]
  rfl

theorem length_of_cues {script : List (Cue κ ξ)} (h : (sights a p).map (·.cue) = script) :
    (sights a p).length = script.length := by
  rw [← h, List.length_map]

/-! ## Two runs of a set -/

/-- Two runs have come to the same for every task but `a`. -/
structure MatchesBut (a : TaskId) (h p : List (SetOccurrence κ ξ)) (s : TaskSet κ ξ)
    (h' p' : List (SetOccurrence κ ξ)) (s' : TaskSet κ ξ) : Prop where
  scene : s.scene a = s'.scene a
  members : ∀ b, b ≠ a → s.registry.has b = s'.registry.has b
  happenings : ∀ b, b ≠ a → p.flatMap (happenings b) = p'.flatMap (happenings b)
  /-- What may happen next in one run may happen next in the other. -/
  ready : ∀ q, IsReady a h s q → (∀ c, q.ticket? = some c → c ∉ begun h') → IsReady a h' s' q

/-- Whatever a task does, and whatever becomes of its error, the other tasks of a set do not notice,
unless they ask for a position that it holds in one run only. -/
theorem isolation_of_run (hrun : (setSystem κ ξ).Run h s) (hrun' : (setSystem κ ξ).Run h' s')
    (heq : h = pre ++ o :: p) (heq' : h' = pre' ++ o' :: p')
    (hstart : StartsWith (pre ++ [o]) ((setSystem κ ξ).after o))
    (hsame : SameBut a (pre ++ [o]) (pre' ++ [o']))
    (hspared : ∀ x ∈ h ++ h', x.event.isSparing = true)
    (hD : Follows D (sights a p)) (hD' : Follows D (sights a p'))
    (hheld : Agree (holdings a p) (holdings a p')) :
    Agree (sights a p) (sights a p') ∧
      (∀ x ∈ p, x.before.cue? a x.event = none → IsHeedless a x.before x.event) ∧
      ((sights a p).length = (sights a p').length → MatchesBut a h p s h' p' s') := by
  subst heq heq'
  have hafter := (hrun.split rfl).2.2
  have hafter' := (hrun'.split rfl).2.2
  have hbare := hsame.bare_eq hafter hafter' (by simp) (by simp [hstart.2]) hstart.1
  have hstarted : ((setSystem κ ξ).after o').lifecycle = .started := by
    have hl : (((setSystem κ ξ).after o).bare a).lifecycle = .started := hstart.2
    rwa [hbare] at hl
  have hscene : ((setSystem κ ξ).after o').scene a = ((setSystem κ ξ).after o).scene a := by
    rw [← scene_bare, ← hbare, scene_bare]
  have hplays := plays_of_run hrun rfl hstart.2
    (fun x hx => hspared x (List.mem_append_left _ hx)) hD
  have hplays' := plays_of_run hrun' rfl hstarted
    (fun x hx => hspared x (List.mem_append_right _ hx)) hD'
  rw [hscene] at hplays'
  have hagree := Scene.agree_foldl_turn D (((setSystem κ ξ).after o).scene a) hheld
  rw [← hplays.scene, ← hplays'.scene] at hagree
  refine ⟨hagree, hplays.heedless, fun hlen => ?_⟩
  have hsights : sights a p = sights a p' := hagree.eq_of_length hlen
  have hholdings : holdings a p = holdings a p' :=
    hheld.eq_of_length (by rw [length_holdings, length_holdings, hlen])
  have hv : s.scene a = s'.scene a := by
    have hboth := hplays.scene.trans ((congrArg _ hholdings).trans hplays'.scene.symm)
    exact congrArg Prod.fst hboth
  refine ⟨hv, fun b hb => ?_, fun b hb => ?_, fun q hq hnew => ?_⟩
  · have hhas : ∀ u : TaskSet κ ξ, (u.scene a).registry.has b = u.registry.has b :=
      fun _ => Registry.has_others hb
    rw [← hhas, ← hhas, hv]
  · rw [flatMap_happenings hb (silent_of_run hrun) hplays.heedless,
      flatMap_happenings hb (silent_of_run hrun') hplays'.heedless, hsights]
  · exact hq.of_scene (atWork_of_run hrun hplays.started hplays.undropped)
      (atWork_of_run hrun' hplays'.started hplays'.undropped) hv hnew

/-- A task with a callback fails, or it goes on without one. The other task runs once in both
cases. -/
theorem isolation_of_run_failing : ∃ (h h' pre pre' p p' : List (SetOccurrence Unit Unit))
    (s s' : TaskSet Unit Unit) (o o' : SetOccurrence Unit Unit)
    (D : List (Sight Unit Unit) → Cue Unit Unit),
    (setSystem Unit Unit).Run h s ∧ (setSystem Unit Unit).Run h' s' ∧ h = pre ++ o :: p ∧
    h' = pre' ++ o' :: p' ∧ StartsWith (pre ++ [o]) ((setSystem Unit Unit).after o) ∧
    SameBut 0 (pre ++ [o]) (pre' ++ [o']) ∧ (∀ x ∈ h ++ h', x.event.isSparing = true) ∧
    Follows D (sights 0 p) ∧ Follows D (sights 0 p') ∧ Agree (holdings 0 p) (holdings 0 p') ∧
    (sights 0 p).length = 3 ∧ p.flatMap (happenings 1) = [.runs 1] ∧
    Agree (sights 0 p) (sights 0 p') ∧
    (∀ x ∈ p, x.before.cue? 0 x.event = none → IsHeedless 0 x.before x.event) ∧
    MatchesBut 0 h p s h' p' s' := by
  let script : List (Cue Unit Unit) := [.poll 1 0, .poll 1 1, .ran 1 2 none]
  let startup (options : RegisterOptions PoolId Unit) : List (SetEvent Unit Unit) :=
    [.begin 0 (.register ⟨0, "a"⟩ [] options (some 0) ()) false,
      .begin 1 (.register ⟨1, "b"⟩ [] {} (some 1) ()) false, .begin 2 .init false,
      .initialized 2 (.ok ()) false, .initialized 2 (.ok ()) false]
  obtain ⟨pre, o, p, s, hrun, hes, hset, hno, hl, hspared, hcues, hheld, hdone⟩ :=
    exists_played 4 (startup { onError := some (), pool := some 1 } ++
      [.pollLoop 0 0, .pollLoop 1 0, .pollLoop 0 1, .ran 0 1 (.fault ⟨"boom", []⟩),
        .pollLoop 1 1, .reported 0 "p" (.ok ()), .ran 1 2 (.value ())])
      script [false, false, false] [.runs 1] (by decide +kernel)
  obtain ⟨pre', o', p', s', hrun', hes', hset', -, -, hspared', hcues', hheld', -⟩ :=
    exists_played 4 (startup {} ++
      [.pollLoop 1 0, .pollLoop 0 0, .pollLoop 0 1, .pollLoop 1 1, .ran 1 2 (.value ())])
      script [false, false, false] [.runs 1] (by decide +kernel)
  have hsame : SameBut 0 (pre ++ [o]) (pre' ++ [o']) :=
    ⟨hset.trans hset'.symm, by rw [map_bare, map_bare, hes, hes']; rfl⟩
  have hall : ∀ x ∈ (pre ++ o :: p) ++ (pre' ++ o' :: p'), x.event.isSparing = true :=
    fun x hx => (List.mem_append.1 hx).elim (hspared x) (hspared' x)
  have hboth : Agree (holdings 0 p) (holdings 0 p') := by
    rw [hheld, hheld']
    exact .inl (List.prefix_refl _)
  obtain ⟨hagree, hheedless, hmatch⟩ := isolation_of_run hrun hrun' rfl rfl ⟨hno, hl⟩ hsame hall
    (follows_of_script hcues) (follows_of_script hcues') hboth
  exact ⟨_, _, pre, pre', p, p', s, s', o, o', _, hrun, hrun', rfl, rfl, ⟨hno, hl⟩, hsame, hall,
    follows_of_script hcues, follows_of_script hcues', hboth, length_of_cues hcues, hdone, hagree,
    hheedless, hmatch ((length_of_cues hcues).trans (length_of_cues hcues').symm)⟩

/-- A stage fails, or it does not, and then another task asks for its position. That task is
initialized only if the stage has failed. -/
theorem position_of_failed : ¬ ∀ (a b : TaskId)
    (h h' pre pre' p p' : List (SetOccurrence Unit Unit)) (s s' : TaskSet Unit Unit)
    (o o' : SetOccurrence Unit Unit) (D : List (Sight Unit Unit) → Cue Unit Unit),
    (setSystem Unit Unit).Run h s → (setSystem Unit Unit).Run h' s' → h = pre ++ o :: p →
    h' = pre' ++ o' :: p' → StartsWith (pre ++ [o]) ((setSystem Unit Unit).after o) →
    SameBut a (pre ++ [o]) (pre' ++ [o']) → (∀ x ∈ h ++ h', x.event.isSparing = true) →
    Follows D (sights a p) → Follows D (sights a p') →
    (sights a p).length = (sights a p').length → b ≠ a →
    p.flatMap (happenings b) = p'.flatMap (happenings b) := by
  intro hclaim
  let script : List (Cue Unit Unit) := [.register 2 ⟨1, "b"⟩ [] {} (some 0) ()]
  let course (ending : Ending Unit) : List (SetEvent Unit Unit) :=
    [.begin 0 (.register ⟨0, "a"⟩ [] {} (some 0) ()) false, .begin 1 .init false,
      .initialized 1 (.ok ()) false, .pollLoop 0 0, .pollLoop 0 1, .ran 0 1 ending,
      .begin 2 (.register ⟨1, "b"⟩ [] {} (some 0) ()) false]
  obtain ⟨pre, o, p, s, hrun, hes, hset, hno, hl, hspared, hcues, -, hdone⟩ :=
    exists_played 2 (course (.fault ⟨"boom", []⟩)) script [false] [.inits []] (by decide +kernel)
  obtain ⟨pre', o', p', s', hrun', hes', hset', -, -, hspared', hcues', -, hdone'⟩ :=
    exists_played 2 (course (.value ())) script [true] [] (by decide +kernel)
  have hsame : SameBut 0 (pre ++ [o]) (pre' ++ [o']) :=
    ⟨hset.trans hset'.symm, by rw [map_bare, map_bare, hes, hes']; rfl⟩
  have hboth := hclaim 0 1 _ _ pre pre' p p' s s' o o' _ hrun hrun' rfl rfl ⟨hno, hl⟩ hsame
    (fun x hx => (List.mem_append.1 hx).elim (hspared x) (hspared' x)) (follows_of_script hcues)
    (follows_of_script hcues') ((length_of_cues hcues).trans (length_of_cues hcues').symm)
    Nat.one_ne_zero
  rw [hdone, hdone'] at hboth
  contradiction

end TaskSet

end Overseer
