import Overseer.Proofs.Pipeline.Calls
import Overseer.Proofs.Supervision.Sequence

/-!
# Messages through a sequence

`Sequence.Ends` is what is to become of a message that is pushed through the stages of a sequence.
It passes a number of stages, each of which is given what the one before it made
(`Sequence.Passes`). If the next one fails, nothing is called of those behind it, and the failure is
resolved with the very message that this stage was given. If the next one panics, so does the
sequence.

`Sequence.ends_iff` says that this is what a sequence does: how it ends, which calls it makes for
that and in which world it ends. `push_of_run` says so of the stages that are registered after any
history of a sequence, which are visited by ascending position.
-/

namespace Overseer

variable {σ μ ι κ ξ : Type}

namespace Sequence

variable {stage : ι → Stage (Code σ) μ μ} {note : Record → σ → σ} {name : String}
  {is js : List ι} {i : ι} {msg input out : μ} {w w₁ w' : σ} {x : Ending μ}
  {calls before : List (StageCall ι μ)}

/-- The stages accept and process a message, each what the one before it made. -/
inductive Passes (stage : ι → Stage (Code σ) μ μ) :
    List ι → μ → σ → List (StageCall ι μ) → μ → σ → Prop
  | nil {msg : μ} {w : σ} : Passes stage [] msg w [] msg w
  | cons {i : ι} {is : List ι} {msg input out : μ} {w w₁ w' : σ} {calls calls' : List _} :
      (stage i).Handles i msg w calls (.value input) w₁ →
      Passes stage is input w₁ calls' out w' →
      Passes stage (i :: is) msg w (calls ++ calls') out w'

/-- What is to become of a message: the calls of stage code that this takes, how it ends, and the
world that it leaves. -/
inductive Ends (name : String) (note : Record → σ → σ) (stage : ι → Stage (Code σ) μ μ)
    (is : List ι) (msg : μ) (w : σ) : List (StageCall ι μ) → Ending μ → σ → Prop
  | passes {calls : List _} {out : μ} {w' : σ} : Passes stage is msg w calls out w' →
      Ends name note stage is msg w calls (.value out) w'
  | fails {pre post : List ι} {i : ι} {input : μ} {e : Fault} {x : Ending μ} {w₁ w₂ w' : σ}
      {calls last recovery : List _} : is = pre ++ i :: post →
      Passes stage pre msg w calls input w₁ →
      (stage i).Handles i input w₁ last (.fault e) w₂ →
      StageFailure.Resolves ⟨stage i, input, e⟩ i
        (note (StageFailure.record ⟨stage i, input, e⟩ name) w₂) recovery x w' →
      Ends name note stage is msg w (calls ++ (last ++ recovery)) x w'
  | panics {pre post : List ι} {i : ι} {input : μ} {p : Payload} {w₁ w' : σ}
      {calls last : List _} : is = pre ++ i :: post →
      Passes stage pre msg w calls input w₁ →
      (stage i).Handles i input w₁ last (.panic p) w' →
      Ends name note stage is msg w (calls ++ last) (.panic p) w'

/-- A stage that passes the message on comes before the rest. -/
theorem Ends.cons {calls' : List (StageCall ι μ)}
    (hi : (stage i).Handles i msg w calls (.value input) w₁)
    (h : Ends name note stage is input w₁ calls' x w') :
    Ends name note stage (i :: is) msg w (calls ++ calls') x w' := by
  cases h with
  | passes hpass => exact .passes (.cons hi hpass)
  | fails hsplit hpass hfails hres =>
    rw [← List.append_assoc]
    exact .fails (by rw [hsplit, List.cons_append]) (.cons hi hpass) hfails hres
  | panics hsplit hpass hpanics =>
    rw [← List.append_assoc]
    exact .panics (by rw [hsplit, List.cons_append]) (.cons hi hpass) hpanics

/-- Something is to become of every message. -/
theorem exists_ends (name : String) (note : Record → σ → σ) (stage : ι → Stage (Code σ) μ μ)
    (is : List ι) (msg : μ) (w : σ) :
    ∃ calls x w', Ends name note stage is msg w calls x w' := by
  induction is generalizing msg w with
  | nil => exact ⟨_, _, _, .passes .nil⟩
  | cons i is ih =>
    obtain ⟨calls, x, w₁, hi⟩ := (stage i).exists_handles i msg w
    cases x with
    | value input =>
      obtain ⟨calls', x, w', h⟩ := ih input w₁
      exact ⟨_, _, _, h.cons hi⟩
    | fault e =>
      obtain ⟨recovery, x, w', hres⟩ := StageFailure.exists_resolves ⟨stage i, msg, e⟩ i
        (note (StageFailure.record ⟨stage i, msg, e⟩ name) w₁)
      exact ⟨_, _, _, .fails (List.nil_append _).symm .nil hi hres⟩
    | panic p => exact ⟨_, _, _, .panics (List.nil_append _).symm .nil hi⟩

/-! ## The sequence does it -/

/-- The stages that a message passes do not matter for the rest. -/
theorem Passes.on_run (h : Passes stage is msg w calls out w') (js : List ι) :
    (run ((is ++ js).map stage) msg).on w = (run (js.map stage) out).on w' := by
  induction h with
  | nil => rfl
  | cons hi _ ih =>
    rw [← ih]
    simp only [List.cons_append, List.map_cons, run, Code.on_bind, Code.ends_eq_value.1 hi.ends]

theorem Ends.ends_process (h : Ends name note stage is msg w calls x w') :
    (process name (fun r => modify (note r)) (is.map stage) msg).ends w = (x, w') := by
  cases h with
  | @passes calls out w' hpass =>
    have hrun := hpass.on_run []
    rw [List.append_nil] at hrun
    simp only [process, Code.ends, Code.on_bind, hrun, List.map_nil, run, Code.on_pure]
  | @fails pre post i _ _ _ _ _ _ _ _ _ hsplit hpass hfails hres =>
    have hrun := hpass.on_run (i :: post)
    rw [← hsplit] at hrun
    rw [← hres.ends]
    simp only [process, Code.ends, Code.on_bind, hrun, List.map_cons, run,
      Code.ends_eq_fault.1 hfails.ends, Code.on_pure]
  | @panics pre post i _ _ _ _ _ _ hsplit hpass hpanics =>
    have hrun := hpass.on_run (i :: post)
    rw [← hsplit] at hrun
    simp only [process, Code.ends, Code.on_bind, hrun, List.map_cons, run,
      Code.ends_eq_panic.1 hpanics.ends]

/-! ## Watched stages -/

theorem Passes.watched (h : Passes stage is msg w calls out w')
    (before : List (StageCall ι μ)) :
    Passes (fun i => (stage i).watched i) is msg (w, before) calls out (w', before ++ calls) := by
  induction h generalizing before with
  | nil => rw [List.append_nil]; exact .nil
  | cons hi _ ih =>
    rw [← List.append_assoc]
    exact .cons (hi.watched before) (ih _)

theorem Ends.watched (h : Ends name note stage is msg w calls x w')
    (before : List (StageCall ι μ)) :
    Ends name (fun r y => (note r y.1, y.2)) (fun i => (stage i).watched i) is msg (w, before)
      calls x (w', before ++ calls) := by
  cases h with
  | passes hpass => exact .passes (hpass.watched before)
  | @fails pre post i input e _ _ w₂ w' calls last recovery hsplit hpass hfails hres =>
    have hres' : StageFailure.Resolves ⟨(stage i).watched i, input, e⟩ i
        (note (StageFailure.record ⟨stage i, input, e⟩ name) w₂, before ++ calls ++ last) recovery x
        (w', before ++ calls ++ last ++ recovery) := hres.watched _
    have hcalls : before ++ (calls ++ (last ++ recovery)) =
        before ++ calls ++ last ++ recovery := by
      simp only [List.append_assoc]
    rw [hcalls]
    exact .fails hsplit (hpass.watched before) (hfails.watched _) hres'
  | panics hsplit hpass hpanics =>
    rw [← List.append_assoc]
    exact .panics hsplit (hpass.watched before) (hpanics.watched _)

/-- What a sequence does is what it is to do. -/
theorem ends_iff : (process name (fun r => modify fun y : σ × List (StageCall ι μ) =>
      (note r y.1, y.2)) (is.map fun i => (stage i).watched i) msg).ends (w, []) = (x, w', calls) ↔
    Ends name note stage is msg w calls x w' := by
  constructor
  · intro h
    obtain ⟨calls', x', w'', hends⟩ := exists_ends name note stage is msg w
    have h' := (hends.watched []).ends_process.symm.trans h
    cases h'
    exact hends
  · exact fun h => (h.watched []).ends_process

/-- Only a recovery can change who is registered. -/
theorem Passes.registry {owner : Owner κ ξ σ μ μ} {is : List (Registration κ ξ)}
    {calls : List (StageCall (Registration κ ξ) μ)}
    (h : Passes owner.stage is msg w calls out w') : owner.registry w' = owner.registry w := by
  induction h with
  | nil => rfl
  | cons hi _ ih => exact ih.trans (Owner.registry_handles hi)

theorem Ends.registry {owner : Owner κ ξ σ μ μ} {is : List (Registration κ ξ)}
    {calls : List (StageCall (Registration κ ξ) μ)}
    (h : Ends owner.name owner.note owner.stage is msg w calls x w')
    (hcalls : ∀ call ∈ calls, call.isRecovery = false) : owner.registry w' = owner.registry w := by
  cases h with
  | passes hpass => exact hpass.registry
  | fails _ hpass hfails hres =>
    cases hres with
    | stands _ =>
      rw [owner.registry_note, Owner.registry_handles hfails]
      exact hpass.registry
    | recovers _ _ =>
      have hlast := hcalls _ (List.mem_append_right _ (List.mem_append_right _ List.mem_cons_self))
      contradiction
  | panics _ hpass hpanics => exact (Owner.registry_handles hpanics).trans hpass.registry

end Sequence

namespace Owner

/-- Push a message through the stages that are registered, as a sequence does. -/
def push (owner : Owner κ ξ σ μ μ) (msg : μ) : Code σ (Except Fault μ) := do
  let w ← get
  Sequence.process owner.name (fun r => modify (owner.note r))
    ((owner.registry w).map owner.stage) msg

theorem ends_push (owner : Owner κ ξ σ μ μ) (msg : μ) (w : σ) :
    (owner.push msg).ends w = (Sequence.process owner.name (fun r => modify (owner.note r))
      ((owner.registry w).map owner.stage) msg).ends w := by
  simp only [push, Code.ends, Code.on_bind, Code.on_get]

/-- A sequence serves its messages in a world: the stages are registered by strictly ascending
position, it makes the calls that it is to make and ends as it is to end, no less so if nobody
watches, and unless a recovery is called the same stages are registered afterwards. -/
structure Serves (owner : Owner κ ξ σ μ μ) (w : σ) : Prop where
  ascending : ∃ ns : List Nat,
    List.map (·.order) (owner.registry w) = ns.map some ∧ ns.Pairwise (· < ·)
  ends : ∀ msg calls x w', (owner.watched.push msg).ends (w, []) = (x, w', calls) ↔
    Sequence.Ends owner.name owner.note owner.stage (owner.registry w) msg w calls x w'
  unwatched : ∀ msg calls x w', (owner.watched.push msg).ends (w, []) = (x, w', calls) →
    (owner.push msg).ends w = (x, w')
  stays : ∀ msg calls x w', (owner.watched.push msg).ends (w, []) = (x, w', calls) →
    (∀ call ∈ calls, call.isRecovery = false) → owner.registry w' = owner.registry w

theorem serves_of_ascending {owner : Owner κ ξ σ μ μ} {w : σ}
    (h : ∃ ns : List Nat,
      List.map (·.order) (owner.registry w) = ns.map some ∧ ns.Pairwise (· < ·)) :
    Serves owner w := by
  have hends : ∀ msg calls x w', (owner.watched.push msg).ends (w, []) = (x, w', calls) ↔
      Sequence.Ends owner.name owner.note owner.stage (owner.registry w) msg w calls x w' := by
    intro msg calls x w'
    rw [ends_push]
    exact Sequence.ends_iff
  refine ⟨h, hends, fun msg calls x w' heq => ?_, fun msg calls x w' heq => ?_⟩
  · rw [ends_push]
    exact ((hends msg calls x w').1 heq).ends_process
  · exact ((hends msg calls x w').1 heq).registry

/-- A sequence serves its messages after any history, whatever the code of its stages does. A stage
that panics makes it panic, and then the same stages are registered and serve the next message. -/
theorem push_of_run {h : List (SetOccurrence κ ξ)} {s : TaskSet κ ξ} {owner : Owner κ ξ σ μ μ}
    {w : σ} (hrun : (setSystem κ ξ).Run h s) (hseq : TaskSet.OfSequence h)
    (hw : owner.registry w = s.registry) :
    Serves owner w ∧
    ∀ msg pre r post calls input w₁ last p w', s.registry = pre ++ r :: post →
      Sequence.Passes owner.stage pre msg w calls input w₁ →
      (owner.stage r).Handles r input w₁ last (.panic p) w' →
      (owner.push msg).ends w = (.panic p, w') ∧ owner.registry w' = s.registry ∧
        Serves owner w' := by
  have hsequence := (TaskSet.staged_of_run hrun hseq).isSequence (TaskSet.sound_of_run hrun)
  have hserves : ∀ {v}, owner.registry v = s.registry → Serves owner v := fun hv =>
    serves_of_ascending (hv ▸ hsequence.ascending)
  refine ⟨hserves hw, fun msg pre r post calls input w₁ last p w' hsplit hpass hpanics => ?_⟩
  have hends := (((hserves hw).ends msg _ _ _).2 (.panics (hw.trans hsplit) hpass hpanics))
  have hsame : owner.registry w' = s.registry :=
    ((registry_handles hpanics).trans hpass.registry).trans hw
  exact ⟨(hserves hw).unwatched msg _ _ _ hends, hsame, hserves hsame⟩

/-- A pipeline of numbers, to which every stage but the task 0 adds one. That one panics. -/
def balking : Owner Unit Unit (Registry Unit Unit) Nat Nat where
  name := "s"
  registry w := w
  note _ w := w
  stage r :=
    { name := r.task.name, check := fun _ => pure (.ok ()),
      process := fun n => if r.task.id = 0 then throw (.text "balks") else pure (.ok (n + 1)) }
  registry_note _ _ := rfl
  registry_check _ _ _ := rfl
  registry_process r _ _ := by
    dsimp only
    split <;> rfl

/-- The stage of the task `n`, as it is registered by the call `n`. -/
def stageAt (n : Nat) (order : Nat) : Registration Unit Unit where
  ticket := n
  task := ⟨n, "a"⟩
  args := []
  options := ({} : RegisterOptions PoolId Unit).withPriority order
  order := some order
  extra := ()

/-- The stage that came last is at the first position. It passes a message on, and the other one
panics. -/
theorem push_of_run_balking : ∃ (h : List (SetOccurrence Unit Unit)) (s : TaskSet Unit Unit),
    (setSystem Unit Unit).Run h s ∧ TaskSet.OfSequence h ∧
    s.registry = [stageAt 1 1, stageAt 0 2] ∧
    (balking.watched.push 5).ends (s.registry, []) = (.panic (.text "balks"), s.registry,
      [.check (stageAt 1 1) 5, .process (stageAt 1 1) 5, .check (stageAt 0 2) 6,
        .process (stageAt 0 2) 6]) ∧
    Serves balking s.registry ∧
    ∀ msg pre r post calls input w₁ last p w', s.registry = pre ++ r :: post →
      Sequence.Passes balking.stage pre msg s.registry calls input w₁ →
      (balking.stage r).Handles r input w₁ last (.panic p) w' →
      (balking.push msg).ends s.registry = (.panic p, w') ∧ balking.registry w' = s.registry ∧
        Serves balking w' := by
  obtain ⟨h, s, hrun, hcheck⟩ := System.exists_run_of_replay (S := setSystem Unit Unit)
    (starts_new "s" none)
    [.begin 0 (.register ⟨0, "a"⟩ [] (({} : RegisterOptions PoolId Unit).withPriority 2) (some 2)
        ()) false,
      .begin 1 (.register ⟨1, "a"⟩ [] (({} : RegisterOptions PoolId Unit).withPriority 1) (some 1)
        ()) false]
    (fun h s => decide (TaskSet.OfSequence h) && s.registry == [stageAt 1 1, stageAt 0 2])
    (by decide +kernel)
  simp only [Bool.and_eq_true, decide_eq_true_eq, beq_iff_eq] at hcheck
  obtain ⟨hseq, hreg⟩ := hcheck
  refine ⟨h, s, hrun, hseq, hreg, ?_, push_of_run hrun hseq rfl⟩
  rw [hreg]
  rfl

end Owner

namespace Simulation.World

/-- A message that is pushed through a sequence of the simulation is pushed by its owner. -/
theorem process_sequence {w : World} {s : SetId} {set : TaskSet Callback (Option RecoveryScript)}
    (hset : w.set? s = some set) (msg : String) :
    w.process s .sequence msg = match ((w.owner set.name s id).push msg).ends w with
      | (.value out, w') => (w', .message out)
      | (.fault f, w') => (w', .failure (.fault f))
      | (.panic p, w') => (w', .panic p) := by
  have hreg : (w.owner set.name s id).registry w = set.registry := by simp [owner, hset]
  obtain ⟨result, hresult⟩ : ∃ x, Code.on (Sequence.process set.name logMessage
      (set.registry.map (w.stageOf id)) msg) w = x := ⟨_, rfl⟩
  have hprocess : ExceptT.run (Sequence.process set.name logMessage
      (set.registry.map (w.stageOf id)) msg) w = result := hresult
  have howner : Code.on (Sequence.process (w.owner set.name s id).name
      (fun r => modify ((w.owner set.name s id).note r))
      (set.registry.map (w.owner set.name s id).stage) msg) w = result := hresult
  rw [Owner.ends_push, hreg]
  simp only [process, hset, Code.ends, hprocess, howner]
  rcases result with ⟨(p | (f | out)), w'⟩ <;> rfl

end Simulation.World

end Overseer
