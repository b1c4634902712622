import Overseer.Proofs.Pipeline.Calls
import Overseer.Proofs.Supervision.Entrance

/-!
# Messages to parallel stages

`Parallel.Ends` is what is to become of a message that is given to the stages of a parallel
pipeline. Each is given the message itself, and what they make is listed (`Parallel.Passes`). If one
fails, nothing is called of those behind it, what was listed is forgotten, and the failure is
resolved with the message. If one panics, so does the pipeline.

`Parallel.ends_iff` says that this is what a parallel pipeline does: how it ends, which calls it
makes for that and in which world it ends. `spread_of_run` says so of the stages that are registered
after any history of such a pipeline. Its stages have no priorities, so they are visited in the
order in which they came in.
-/

namespace Overseer

variable {σ μ ι κ ξ : Type}

namespace Parallel

variable {stage : ι → Stage (Code σ) μ (List μ)} {note : Record → σ → σ} {name : String}
  {is : List ι} {msg : μ} {outs : List μ} {w w' : σ} {x : Ending (List μ)}
  {calls : List (StageCall ι μ)}

/-- The stages accept and process one message, and what each makes is listed. -/
inductive Passes (stage : ι → Stage (Code σ) μ (List μ)) (msg : μ) :
    List ι → σ → List (StageCall ι μ) → List μ → σ → Prop
  | nil {w : σ} : Passes stage msg [] w [] [] w
  | cons {i : ι} {is : List ι} {out : μ} {outs : List μ} {w w₁ w' : σ} {calls calls' : List _} :
      (stage i).Handles i msg w calls (.value out) w₁ →
      Passes stage msg is w₁ calls' outs w' →
      Passes stage msg (i :: is) w (calls ++ calls') (out :: outs) w'

/-- What is to become of a message: the calls of stage code that this takes, how it ends, and the
world that it leaves. -/
inductive Ends (name : String) (note : Record → σ → σ) (stage : ι → Stage (Code σ) μ (List μ))
    (is : List ι) (msg : μ) (w : σ) : List (StageCall ι μ) → Ending (List μ) → σ → Prop
  | passes {calls : List _} {outs : List μ} {w' : σ} : Passes stage msg is w calls outs w' →
      Ends name note stage is msg w calls (.value outs) w'
  | fails {pre post : List ι} {i : ι} {outs : List μ} {e : Fault} {x : Ending (List μ)}
      {w₁ w₂ w' : σ} {calls last recovery : List _} : is = pre ++ i :: post →
      Passes stage msg pre w calls outs w₁ →
      (stage i).Handles i msg w₁ last (.fault e) w₂ →
      StageFailure.Resolves ⟨stage i, msg, e⟩ i
        (note (StageFailure.record ⟨stage i, msg, e⟩ name) w₂) recovery x w' →
      Ends name note stage is msg w (calls ++ (last ++ recovery)) x w'
  | panics {pre post : List ι} {i : ι} {outs : List μ} {p : Payload} {w₁ w' : σ}
      {calls last : List _} : is = pre ++ i :: post →
      Passes stage msg pre w calls outs w₁ →
      (stage i).Handles i msg w₁ last (.panic p) w' →
      Ends name note stage is msg w (calls ++ last) (.panic p) w'

/-- As many are listed as stages have passed. -/
theorem Passes.length_eq (h : Passes stage msg is w calls outs w') : outs.length = is.length := by
  induction h with
  | nil => rfl
  | cons _ _ ih => rw [List.length_cons, List.length_cons, ih]

/-- A message passes all stages, or there is a first that does not process it. -/
theorem passes_or_stops (stage : ι → Stage (Code σ) μ (List μ)) (msg : μ) (is : List ι) (w : σ) :
    (∃ calls outs w', Passes stage msg is w calls outs w') ∨
      ∃ pre i post calls outs w₁ last x w₂, is = pre ++ i :: post ∧
        Passes stage msg pre w calls outs w₁ ∧ (stage i).Handles i msg w₁ last x w₂ ∧
          ∀ out, x ≠ .value out := by
  induction is generalizing w with
  | nil => exact .inl ⟨_, _, _, .nil⟩
  | cons i is ih =>
    obtain ⟨calls, x, w₁, hi⟩ := (stage i).exists_handles i msg w
    cases x with
    | value out =>
      rcases ih w₁ with ⟨calls', outs, w', hpass⟩ |
        ⟨pre, j, post, calls', outs, w₂, last, x, w₃, rfl, hpass, hj, hstops⟩
      · exact .inl ⟨_, _, _, .cons hi hpass⟩
      · exact .inr ⟨i :: pre, j, post, _, _, _, last, x, w₃, rfl, .cons hi hpass, hj, hstops⟩
    | fault e => exact .inr ⟨[], i, is, _, _, _, _, _, _, rfl, .nil, hi, nofun⟩
    | panic p => exact .inr ⟨[], i, is, _, _, _, _, _, _, rfl, .nil, hi, nofun⟩

/-- Something is to become of every message. -/
theorem exists_ends (name : String) (note : Record → σ → σ)
    (stage : ι → Stage (Code σ) μ (List μ)) (is : List ι) (msg : μ) (w : σ) :
    ∃ calls x w', Ends name note stage is msg w calls x w' := by
  rcases passes_or_stops stage msg is w with ⟨calls, outs, w', hpass⟩ |
    ⟨pre, i, post, calls, outs, w₁, last, x, w₂, hsplit, hpass, hi, hstops⟩
  · exact ⟨_, _, _, .passes hpass⟩
  · cases x with
    | value out => exact absurd rfl (hstops out)
    | fault e =>
      obtain ⟨recovery, x, w', hres⟩ := StageFailure.exists_resolves ⟨stage i, msg, e⟩ i
        (note (StageFailure.record ⟨stage i, msg, e⟩ name) w₂)
      exact ⟨_, _, _, .fails hsplit hpass hi hres⟩
    | panic p => exact ⟨_, _, _, .panics hsplit hpass hi⟩

/-! ## The pipeline does it -/

/-- What the stages make that a message passes comes before what the rest makes. -/
theorem Passes.on_run (h : Passes stage msg is w calls outs w') (js : List ι) :
    (run ((is ++ js).map stage) msg).on w = match (run (js.map stage) msg).on w' with
      | (.ok result, v) => (.ok (result.map (outs ++ ·)), v)
      | (.error p, v) => (.error p, v) := by
  induction h with
  | @nil w =>
    rw [List.nil_append]
    rcases (run (js.map stage) msg).on w with ⟨p | (failure | rest), v⟩ <;> rfl
  | @cons i is out outs w w₁ w' _ _ hi _ ih =>
    simp only [List.cons_append, List.map_cons, run, Code.on_bind,
      Code.ends_eq_value.1 hi.ends, ih]
    rcases (run (js.map stage) msg).on w' with ⟨p | (failure | rest), v⟩ <;> rfl

theorem Ends.ends_process (h : Ends name note stage is msg w calls x w') :
    (process name (fun r => modify (note r)) (is.map stage) msg).ends w = (x, w') := by
  cases h with
  | @passes calls outs w' hpass =>
    have hrun := hpass.on_run []
    rw [List.append_nil] at hrun
    have hall : Except.map (outs ++ ·) (.ok [] : Except (StageFailure (Code σ) μ (List μ)) _) =
        .ok outs := congrArg Except.ok (List.append_nil outs)
    simp only [process, Code.ends, Code.on_bind, hrun, List.map_nil, run, Code.on_pure, hall]
  | @fails pre post i _ _ _ _ _ _ _ _ _ hsplit hpass hfails hres =>
    have hrun := hpass.on_run (i :: post)
    rw [← hsplit] at hrun
    rw [← hres.ends]
    simp only [process, Code.ends, Code.on_bind, hrun, List.map_cons, run,
      Code.ends_eq_fault.1 hfails.ends, Code.on_pure]
    rfl
  | @panics pre post i _ _ _ _ _ _ hsplit hpass hpanics =>
    have hrun := hpass.on_run (i :: post)
    rw [← hsplit] at hrun
    simp only [process, Code.ends, Code.on_bind, hrun, List.map_cons, run,
      Code.ends_eq_panic.1 hpanics.ends]

/-! ## Watched stages -/

theorem Passes.watched (h : Passes stage msg is w calls outs w') (before : List (StageCall ι μ)) :
    Passes (fun i => (stage i).watched i) msg is (w, before) calls outs (w', before ++ calls) := by
  induction h generalizing before with
  | nil => rw [List.append_nil]; exact .nil
  | cons hi _ ih =>
    rw [← List.append_assoc]
    exact .cons (hi.watched before) (ih _)

theorem Ends.watched (h : Ends name note stage is msg w calls x w')
    (before : List (StageCall ι μ)) :
    Ends name (fun r y => (note r y.1, y.2)) (fun i => (stage i).watched i) is msg (w, before)
      calls x (w', before ++ calls) := by
  cases h with
  | passes hpass => exact .passes (hpass.watched before)
  | @fails pre post i _ e _ _ w₂ w' calls last recovery hsplit hpass hfails hres =>
    have hres' : StageFailure.Resolves ⟨(stage i).watched i, msg, e⟩ i
        (note (StageFailure.record ⟨stage i, msg, e⟩ name) w₂, before ++ calls ++ last) recovery x
        (w', before ++ calls ++ last ++ recovery) := hres.watched _
    have hcalls : before ++ (calls ++ (last ++ recovery)) =
        before ++ calls ++ last ++ recovery := by
      simp only [List.append_assoc]
    rw [hcalls]
    exact .fails hsplit (hpass.watched before) (hfails.watched _) hres'
  | panics hsplit hpass hpanics =>
    rw [← List.append_assoc]
    exact .panics hsplit (hpass.watched before) (hpanics.watched _)

/-- What a parallel pipeline does is what it is to do. -/
theorem ends_iff : (process name (fun r => modify fun y : σ × List (StageCall ι μ) =>
      (note r y.1, y.2)) (is.map fun i => (stage i).watched i) msg).ends (w, []) = (x, w', calls) ↔
    Ends name note stage is msg w calls x w' := by
  constructor
  · intro h
    obtain ⟨calls', x', w'', hends⟩ := exists_ends name note stage is msg w
    have h' := (hends.watched []).ends_process.symm.trans h
    cases h'
    exact hends
  · exact fun h => (h.watched []).ends_process

/-- Only a recovery can change who is registered. -/
theorem Passes.registry {owner : Owner κ ξ σ μ (List μ)} {is : List (Registration κ ξ)}
    {calls : List (StageCall (Registration κ ξ) μ)}
    (h : Passes owner.stage msg is w calls outs w') : owner.registry w' = owner.registry w := by
  induction h with
  | nil => rfl
  | cons hi _ ih => exact ih.trans (Owner.registry_handles hi)

theorem Ends.registry {owner : Owner κ ξ σ μ (List μ)} {is : List (Registration κ ξ)}
    {calls : List (StageCall (Registration κ ξ) μ)}
    (h : Ends owner.name owner.note owner.stage is msg w calls x w')
    (hcalls : ∀ call ∈ calls, call.isRecovery = false) : owner.registry w' = owner.registry w := by
  cases h with
  | passes hpass => exact hpass.registry
  | fails _ hpass hfails hres =>
    cases hres with
    | stands _ =>
      rw [owner.registry_note, Owner.registry_handles hfails]
      exact hpass.registry
    | recovers _ _ =>
      have hlast := hcalls _ (List.mem_append_right _ (List.mem_append_right _ List.mem_cons_self))
      contradiction
  | panics _ hpass hpanics => exact (Owner.registry_handles hpanics).trans hpass.registry

end Parallel

/-! ## Histories -/

/-- A request as a parallel pipeline makes it: a stage has no position and no priority. -/
def Request.IsPlain : Request κ ξ → Prop
  | .register _ _ options order _ => order = none ∧ options.priorities = []
  | _ => True

instance : (request : Request κ ξ) → Decidable request.IsPlain
  | .register _ _ options order _ =>
    inferInstanceAs (Decidable (order = none ∧ options.priorities = []))
  | .init => inferInstanceAs (Decidable True)
  | .destroy => inferInstanceAs (Decidable True)

namespace TaskSet

variable {s : TaskSet κ ξ} {h : List (SetOccurrence κ ξ)}

/-- Every request of the history is one of a parallel pipeline. -/
def OfParallel (h : List (SetOccurrence κ ξ)) : Prop :=
  ∀ o ∈ h, ∀ request ∈ o.event.request?, request.IsPlain

instance : Decidable (OfParallel h) :=
  inferInstanceAs (Decidable (∀ o ∈ h, ∀ request ∈ o.event.request?, request.IsPlain))

/-- Without priorities, who has come in and not left is visited in the order of entrance. -/
theorem tickets_of_parallel (hrun : (setSystem κ ξ).Run h s) (hpar : OfParallel h) :
    s.tickets = residents h := by
  have hkeys : ∀ r ∈ s.registry, r.sortKey = RegisterOptions.defaultPriority := by
    intro r hr
    obtain ⟨o, ho, b, hevent⟩ := (requested_of_run hrun).registered r hr
    have hplain : r.origin.2.IsPlain := hpar o ho _ (by rw [hevent]; rfl)
    rw [Registration.sortKey, RegisterOptions.sortKey, hplain.2]
    rfl
  refine eq_of_pairs (nodup_residents hrun) (tickets_perm hrun)
    (List.pairwise_map.2 ((lined_residents hrun).imp_of_mem fun {a b} ha hb hab => ?_))
  rcases hab with hless | ⟨-, hpair⟩
  · rw [hkeys a ha, hkeys b hb] at hless
    exact absurd hless (Nat.lt_irrefl _)
  · exact hpair

end TaskSet

namespace Owner

/-- Give a message to the stages that are registered, as a parallel pipeline does. -/
def spread (owner : Owner κ ξ σ μ (List μ)) (msg : μ) : Code σ (Except Fault (List μ)) := do
  let w ← get
  Parallel.process owner.name (fun r => modify (owner.note r))
    ((owner.registry w).map owner.stage) msg

theorem ends_spread (owner : Owner κ ξ σ μ (List μ)) (msg : μ) (w : σ) :
    (owner.spread msg).ends w = (Parallel.process owner.name (fun r => modify (owner.note r))
      ((owner.registry w).map owner.stage) msg).ends w := by
  simp only [spread, Code.ends, Code.on_bind, Code.on_get]

/-- A parallel pipeline serves its messages in a world: it makes the calls that it is to make and
ends as it is to end, no less so if nobody watches. A message that passes all stages leaves one
output of each, and unless a recovery is called the same stages are registered afterwards. -/
structure Spreads (owner : Owner κ ξ σ μ (List μ)) (w : σ) : Prop where
  ends : ∀ msg calls x w', (owner.watched.spread msg).ends (w, []) = (x, w', calls) ↔
    Parallel.Ends owner.name owner.note owner.stage (owner.registry w) msg w calls x w'
  unwatched : ∀ msg calls x w', (owner.watched.spread msg).ends (w, []) = (x, w', calls) →
    (owner.spread msg).ends w = (x, w')
  complete : ∀ msg calls outs w',
    Parallel.Passes owner.stage msg (owner.registry w) w calls outs w' →
      (owner.spread msg).ends w = (.value outs, w') ∧
        outs.length = List.length (owner.registry w)
  stays : ∀ msg calls x w', (owner.watched.spread msg).ends (w, []) = (x, w', calls) →
    (∀ call ∈ calls, call.isRecovery = false) → owner.registry w' = owner.registry w

theorem spreads (owner : Owner κ ξ σ μ (List μ)) (w : σ) : Spreads owner w := by
  have hends : ∀ msg calls x w', (owner.watched.spread msg).ends (w, []) = (x, w', calls) ↔
      Parallel.Ends owner.name owner.note owner.stage (owner.registry w) msg w calls x w' := by
    intro msg calls x w'
    rw [ends_spread]
    exact Parallel.ends_iff
  refine ⟨hends, fun msg calls x w' heq => ?_, fun msg calls outs w' hpass => ?_,
    fun msg calls x w' heq => ?_⟩
  · rw [ends_spread]
    exact ((hends msg calls x w').1 heq).ends_process
  · rw [ends_spread]
    exact ⟨(Parallel.Ends.passes hpass).ends_process, hpass.length_eq⟩
  · exact ((hends msg calls x w').1 heq).registry

/-- A parallel pipeline serves its messages after any history, whatever the code of its stages does,
and visits in the order of entrance the stages that have come in and not left. None has come in
twice. -/
theorem spread_of_run {h : List (SetOccurrence κ ξ)} {s : TaskSet κ ξ}
    {owner : Owner κ ξ σ μ (List μ)} {w : σ} (hrun : (setSystem κ ξ).Run h s)
    (hpar : TaskSet.OfParallel h) (hw : owner.registry w = s.registry) :
    List.map (·.ticket) (owner.registry w) = TaskSet.residents h ∧
      (TaskSet.entrants h).Nodup ∧ Spreads owner w :=
  ⟨hw ▸ TaskSet.tickets_of_parallel hrun hpar, TaskSet.nodup_entrants hrun, owner.spreads w⟩

/-- A pipeline of numbers that keeps its records. Each stage adds the number of its task, but the
task 2 does not accept a seven, and makes two of it. -/
def choosy : Owner Unit Unit (Registry Unit Unit × List Record) Nat (List Nat) where
  name := "s"
  registry w := w.1
  note r w := (w.1, w.2 ++ [r])
  stage r :=
    { name := r.task.name,
      check := fun n => pure (if r.task.id = 2 ∧ n = 7 then .error ⟨"a seven", []⟩ else .ok ()),
      process := fun n => pure (.ok (n + r.task.id)),
      recover := some fun n _ => pure (.ok [n, n]) }
  registry_note _ _ := rfl
  registry_check r n _ := by
    dsimp only
    split <;> rfl
  registry_process _ _ _ := rfl

/-- A stage as the call `ticket` registers it for the task `n`. -/
def plainStage (ticket n : Nat) : Registration Unit Unit where
  ticket := ticket
  task := ⟨n, "a"⟩
  args := []
  options := {}
  order := none
  extra := ()

/-- The stage of the task 0 goes and comes again, now behind the others. A seven stops at the one
before it, and that is recorded. -/
theorem spread_of_run_choosy : ∃ (h : List (SetOccurrence Unit Unit)) (s : TaskSet Unit Unit),
    (setSystem Unit Unit).Run h s ∧ TaskSet.OfParallel h ∧
    s.registry = [plainStage 1 1, plainStage 2 2, plainStage 3 0] ∧
    (choosy.spread 5).ends (s.registry, []) = (.value [6, 7, 5], s.registry, []) ∧
    (choosy.watched.spread 7).ends ((s.registry, []), []) = (.value [7, 7],
      (s.registry,
        [StageFailure.record ⟨choosy.stage (plainStage 2 2), 7, ⟨"a seven", []⟩⟩ choosy.name]),
      [.check (plainStage 1 1) 7, .process (plainStage 1 1) 7, .check (plainStage 2 2) 7,
        .recover (plainStage 2 2) 7 ⟨"a seven", []⟩]) ∧
    TaskSet.entrants h = [0, 1, 2, 3] ∧
    List.map (·.ticket) (choosy.registry (s.registry, [])) = TaskSet.residents h ∧
      (TaskSet.entrants h).Nodup ∧ Spreads choosy (s.registry, []) := by
  obtain ⟨h, s, hrun, hcheck⟩ := System.exists_run_of_replay (S := setSystem Unit Unit)
    (starts_new "s" none)
    [.begin 0 (.register ⟨0, "a"⟩ [] {} none ()) false,
      .begin 1 (.register ⟨1, "a"⟩ [] {} none ()) false,
      .begin 2 (.register ⟨2, "a"⟩ [] {} none ()) false,
      .unregister ⟨0, "a"⟩,
      .begin 3 (.register ⟨0, "a"⟩ [] {} none ()) false]
    (fun h s => decide (TaskSet.OfParallel h) && (TaskSet.entrants h == [0, 1, 2, 3] &&
      s.registry == [plainStage 1 1, plainStage 2 2, plainStage 3 0]))
    (by decide +kernel)
  simp only [Bool.and_eq_true, decide_eq_true_eq, beq_iff_eq] at hcheck
  obtain ⟨hpar, hcame, hreg⟩ := hcheck
  refine ⟨h, s, hrun, hpar, hreg, ?_, ?_, hcame, spread_of_run hrun hpar rfl⟩
  · rw [hreg]
    rfl
  · rw [hreg]
    rfl

end Owner

namespace Simulation.World

/-- A message to a parallel pipeline of the simulation is spread by its owner. -/
theorem process_parallel {w : World} {s : SetId} {set : TaskSet Callback (Option RecoveryScript)}
    (hset : w.set? s = some set) (msg : String) :
    w.process s .parallel msg =
      match ((w.owner set.name s fun out => [out]).spread msg).ends w with
      | (.value outs, w') => (w', .messages outs)
      | (.fault f, w') => (w', .failure (.fault f))
      | (.panic p, w') => (w', .panic p) := by
  have hreg : (w.owner set.name s fun out => [out]).registry w = set.registry := by
    simp [owner, hset]
  obtain ⟨result, hresult⟩ : ∃ x, Code.on (Parallel.process set.name logMessage
      (set.registry.map (w.stageOf fun out => [out])) msg) w = x := ⟨_, rfl⟩
  have hprocess : ExceptT.run (Parallel.process set.name logMessage
      (set.registry.map (w.stageOf fun out => [out])) msg) w = result := hresult
  have howner : Code.on (Parallel.process (w.owner set.name s fun out => [out]).name
      (fun r => modify ((w.owner set.name s fun out => [out]).note r))
      (set.registry.map (w.owner set.name s fun out => [out]).stage) msg) w = result := hresult
  rw [Owner.ends_spread, hreg]
  simp only [process, hset, Code.ends, hprocess, howner]
  rcases result with ⟨(p | (f | outs)), w'⟩ <;> rfl

end Simulation.World

end Overseer
