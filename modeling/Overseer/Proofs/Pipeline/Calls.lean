import Overseer.Proofs.Supervision.Registry
import Overseer.Simulation.Messages

/-!
# The code of the stages of a pipeline

A pipeline runs the code of its stages in a world `σ`, which the code changes as it likes, and each
piece of code ends with a value, a fault or a panic (`Code.ends`). `Stage.Handles` is what a stage
is to do with the message that it is given, and `StageFailure.Resolves` what is to become of a
failure. Both name the calls that this takes, in order.

To see which calls a pipeline makes, its stages are watched: `Stage.watched` is the stage with each
call written down in a second part of the world, which the code does not reach.

An `Owner` has a pipeline. Its stages are those that are registered in its world. They run with the
registry locked for reading, so they leave it as it is. A recovery comes after the lock is released.
-/

namespace Overseer

variable {σ μ ο ι α β κ ξ : Type}

/-- Code that runs in a world and may panic. -/
abbrev Code (σ : Type) := ExceptT Payload (StateM σ)

namespace Code

variable {m : Code σ (Except Fault α)} {w w' : σ}

/-- What a piece of code gives in a world, and the world that it leaves. -/
def on (m : Code σ α) (w : σ) : Except Payload α × σ := m.run w

@[simp] theorem on_pure (a : α) (w : σ) : (pure a : Code σ α).on w = (.ok a, w) := rfl

@[simp] theorem on_modify (f : σ → σ) (w : σ) :
    (modify f : Code σ PUnit).on w = (.ok (), f w) := rfl

@[simp] theorem on_get (w : σ) : (get : Code σ σ).on w = (.ok w, w) := rfl

@[simp] theorem on_set (w w' : σ) : (set w' : Code σ PUnit).on w = (.ok (), w') := rfl

theorem on_bind (m : Code σ α) (k : α → Code σ β) (w : σ) :
    (m >>= k).on w = match m.on w with
      | (.ok a, w') => (k a).on w'
      | (.error p, w') => (.error p, w') := by
  simp only [on, ExceptT.run, bind, ExceptT.bind, ExceptT.mk, StateT.bind, ExceptT.bindCont]
  cases m w with
  | mk result w' => cases result <;> rfl

/-- How a piece of code ends, and the world that it leaves. -/
def ends (m : Code σ (Except Fault α)) (w : σ) : Ending α × σ :=
  match m.on w with
  | (.ok (.ok a), w') => (.value a, w')
  | (.ok (.error e), w') => (.fault e, w')
  | (.error p, w') => (.panic p, w')

theorem ends_eq_value {a : α} : m.ends w = (.value a, w') ↔ m.on w = (.ok (.ok a), w') := by
  unfold ends
  split <;> simp_all

theorem ends_eq_fault {e : Fault} :
    m.ends w = (.fault e, w') ↔ m.on w = (.ok (.error e), w') := by
  unfold ends
  split <;> simp_all

theorem ends_eq_panic {p : Payload} : m.ends w = (.panic p, w') ↔ m.on w = (.error p, w') := by
  unfold ends
  split <;> simp_all

/-- The code, with a call written down when it is done. -/
def watched (call : κ) (m : Code σ α) : Code (σ × List κ) α :=
  ExceptT.mk fun x => ((m.on x.1).1, ((m.on x.1).2, x.2 ++ [call]))

theorem ends_watched (call : κ) (m : Code σ (Except Fault α)) (x : σ × List κ) :
    (m.watched call).ends x = ((m.ends x.1).1, ((m.ends x.1).2, x.2 ++ [call])) := by
  have hon : (m.watched call).on x = ((m.on x.1).1, ((m.on x.1).2, x.2 ++ [call])) := rfl
  simp only [ends, hon]
  rcases m.on x.1 with ⟨(p | (e | a)), w'⟩ <;> rfl

end Code

/-- A call of the code of a stage. -/
inductive StageCall (ι μ : Type) where
  | check (stage : ι) (msg : μ)
  | process (stage : ι) (msg : μ)
  | recover (stage : ι) (msg : μ) (error : Fault)
  deriving DecidableEq

namespace StageCall

def isRecovery : StageCall ι μ → Bool
  | recover _ _ _ => true
  | _ => false

end StageCall

namespace Stage

variable {stage : Stage (Code σ) μ ο} {i : ι} {msg : μ} {w w' : σ} {x : Ending μ}
  {calls : List (StageCall ι μ)}

/-- What the stage `i` is to do with a message: the check comes first, and the message is processed
only if the check accepts it. -/
inductive Handles (stage : Stage (Code σ) μ ο) (i : ι) (msg : μ) (w : σ) :
    List (StageCall ι μ) → Ending μ → σ → Prop
  | rejects {e w'} : (stage.check msg).ends w = (.fault e, w') →
      Handles stage i msg w [.check i msg] (.fault e) w'
  | panics {p w'} : (stage.check msg).ends w = (.panic p, w') →
      Handles stage i msg w [.check i msg] (.panic p) w'
  | accepts {w' x w''} : (stage.check msg).ends w = (.value (), w') →
      (stage.process msg).ends w' = (x, w'') →
      Handles stage i msg w [.check i msg, .process i msg] x w''

/-- A stage does what it is to do. -/
theorem Handles.ends (h : Handles stage i msg w calls x w') :
    (stage.run msg).ends w = (x, w') := by
  cases h with
  | rejects hc => simp [Stage.run, Code.ends, Code.on_bind, Code.ends_eq_fault.1 hc]
  | panics hc => simp [Stage.run, Code.ends, Code.on_bind, Code.ends_eq_panic.1 hc]
  | accepts hc hp =>
    rw [← hp]
    simp [Stage.run, Code.ends, Code.on_bind, Code.ends_eq_value.1 hc]

theorem exists_handles (stage : Stage (Code σ) μ ο) (i : ι) (msg : μ) (w : σ) :
    ∃ calls x w', Handles stage i msg w calls x w' := by
  cases hc : (stage.check msg).ends w with
  | mk x w' =>
    cases x with
    | value _ => exact ⟨_, _, _, .accepts hc rfl⟩
    | fault e => exact ⟨_, _, _, .rejects hc⟩
    | panic p => exact ⟨_, _, _, .panics hc⟩

/-- The stage, with its calls written down. -/
def watched (i : ι) (stage : Stage (Code σ) μ ο) :
    Stage (Code (σ × List (StageCall ι μ))) μ ο where
  name := stage.name
  check msg := (stage.check msg).watched (.check i msg)
  process msg := (stage.process msg).watched (.process i msg)
  recover := stage.recover.map fun f msg e => (f msg e).watched (.recover i msg e)

/-- What is written down is what the stage calls. -/
theorem Handles.watched (h : Handles stage i msg w calls x w')
    (before : List (StageCall ι μ)) :
    Handles (stage.watched i) i msg (w, before) calls x (w', before ++ calls) := by
  cases h with
  | rejects hc => exact .rejects (by simp [Stage.watched, Code.ends_watched, hc])
  | panics hc => exact .panics (by simp [Stage.watched, Code.ends_watched, hc])
  | @accepts w₁ _ _ hc hp =>
    have hc' : ((stage.watched i).check msg).ends (w, before) =
        (.value (), (w₁, before ++ [.check i msg])) := by
      simp only [Stage.watched, Code.ends_watched, hc]
    exact .accepts hc' (by simp [Stage.watched, Code.ends_watched, hp])

end Stage

namespace StageFailure

variable {failure : StageFailure (Code σ) μ ο} {i : ι} {w w' : σ} {x : Ending ο}
  {calls : List (StageCall ι μ)} {note : Record → σ → σ} {name : String}

/-- What is to become of a failure of the stage `i` once it is logged: the recovery of the stage
decides if it has one, and else the error stands. -/
inductive Resolves (failure : StageFailure (Code σ) μ ο) (i : ι) (w : σ) :
    List (StageCall ι μ) → Ending ο → σ → Prop
  | stands : failure.stage.recover = none → Resolves failure i w [] (.fault failure.error) w
  | recovers {f x w'} : failure.stage.recover = some f →
      (f failure.input failure.error).ends w = (x, w') →
      Resolves failure i w [.recover i failure.input failure.error] x w'

theorem Resolves.ends (h : Resolves failure i (note (failure.record name) w) calls x w') :
    (failure.resolve name fun r => modify (note r)).ends w = (x, w') := by
  cases h with
  | stands hnone =>
    simp only [resolve, Code.ends, Code.on_bind, Code.on_modify, hnone, Code.on_pure]
  | recovers hsome hends =>
    rw [← hends]
    simp only [resolve, Code.ends, Code.on_bind, Code.on_modify, hsome]

theorem exists_resolves (failure : StageFailure (Code σ) μ ο) (i : ι) (w : σ) :
    ∃ calls x w', Resolves failure i w calls x w' := by
  cases hf : failure.stage.recover with
  | none => exact ⟨_, _, _, .stands hf⟩
  | some f => exact ⟨_, _, _, .recovers hf rfl⟩

/-- The failure of a watched stage. -/
def watched (i : ι) (failure : StageFailure (Code σ) μ ο) :
    StageFailure (Code (σ × List (StageCall ι μ))) μ ο :=
  ⟨failure.stage.watched i, failure.input, failure.error⟩

theorem Resolves.watched (h : Resolves failure i w calls x w')
    (before : List (StageCall ι μ)) :
    Resolves (failure.watched i) i (w, before) calls x (w', before ++ calls) := by
  cases h with
  | stands hnone =>
    have hnone' : (failure.watched i).stage.recover = none := by
      simp [StageFailure.watched, Stage.watched, hnone]
    rw [List.append_nil]
    exact .stands hnone'
  | @recovers f x w' hsome hends =>
    have hsome' : (failure.watched i).stage.recover =
        some fun msg e => (f msg e).watched (.recover i msg e) := by
      simp [StageFailure.watched, Stage.watched, hsome]
    exact .recovers hsome' (by simp [StageFailure.watched, Code.ends_watched, hends])

end StageFailure

/-- Whoever has a pipeline: the name of the pipeline, where its stages are registered, how a record
is written, and the code of each stage. Stages are checked and process messages while the registry
is locked for reading. -/
structure Owner (κ ξ σ μ ο : Type) where
  name : String
  registry : σ → Registry κ ξ
  note : Record → σ → σ
  stage : Registration κ ξ → Stage (Code σ) μ ο
  registry_note : ∀ r w, registry (note r w) = registry w
  registry_check : ∀ r msg w, registry (((stage r).check msg).ends w).2 = registry w
  registry_process : ∀ r msg w, registry (((stage r).process msg).ends w).2 = registry w

namespace Owner

variable {owner : Owner κ ξ σ μ ο} {r : Registration κ ξ} {msg : μ} {w w' : σ} {x : Ending μ}
  {calls : List (StageCall ι μ)} {i : ι}

theorem registry_handles (h : (owner.stage r).Handles i msg w calls x w') :
    owner.registry w' = owner.registry w := by
  cases h with
  | rejects hc => simpa [hc] using owner.registry_check r msg w
  | panics hc => simpa [hc] using owner.registry_check r msg w
  | @accepts w₁ _ _ hc hp =>
    have hchecked : owner.registry w₁ = owner.registry w := by
      simpa [hc] using owner.registry_check r msg w
    rw [← hchecked]
    simpa [hp] using owner.registry_process r msg w₁

/-- The same pipeline, with the calls of its stages written down. -/
def watched (owner : Owner κ ξ σ μ ο) :
    Owner κ ξ (σ × List (StageCall (Registration κ ξ) μ)) μ ο where
  name := owner.name
  registry x := owner.registry x.1
  note r x := (owner.note r x.1, x.2)
  stage r := (owner.stage r).watched r
  registry_note r x := owner.registry_note r x.1
  registry_check r msg x := by
    simpa [Stage.watched, Code.ends_watched] using owner.registry_check r msg x.1
  registry_process r msg x := by
    simpa [Stage.watched, Code.ends_watched] using owner.registry_process r msg x.1

end Owner

namespace Simulation.World

/-- What a simulation knows of a pipeline whose set is `s`. The names of the stages are those that
its tasks have in `v`. -/
def owner (v : World) (name : String) (s : SetId) (whole : String → ο) :
    Owner Callback (Option RecoveryScript) World String ο where
  name := name
  registry w := ((w.set? s).map (·.registry)).getD []
  note r w := w.log r
  stage := v.stageOf whole
  registry_note r w := rfl
  registry_check r msg w := by
    simp only [stageOf, checkMessage, Code.ends, Code.on_bind, Code.on_get]
    cases w.script? r.task.id with
    | none => rfl
    | some script => simp only [Code.on_pure]; split <;> simp_all
  registry_process r msg w := by
    simp only [stageOf, processMessage, Code.ends, Code.on_bind, Code.on_get]
    cases w.script? r.task.id with
    | none => rfl
    | some script =>
      simp only [Code.on_bind, Code.on_set]
      cases script.2.messages.process (w.taskName r.task.id) msg <;> rfl

end Simulation.World

end Overseer
