import Overseer.Fault
import Overseer.Record

/-!
# Pipelines

What happens to a message that is pushed through the stages of a pipeline. The stages are the
owner's code and run in a monad `m`, where they may do what they like, panic included.

`Sequence.process` chains the stages: each is given what the one before it made.
`Parallel.process` gives every stage the same message and lists what they make. In both, the
first stage that rejects or fails to process its message ends the run, and the recovery of that
stage, if it has one, decides the result (`StageFailure.resolve`).
-/

namespace Overseer

/-- A stage for messages of type `μ` in a pipeline that produces an `ο`. -/
structure Stage (m : Type → Type) (μ ο : Type) where
  name : String
  /-- Is the message acceptable? -/
  check : μ → m (Except Fault Unit)
  process : μ → m (Except Fault μ)
  /-- What to make of a message that failed here, given its error. -/
  recover : Option (μ → Fault → m (Except Fault ο)) := none

/-- A stage that failed, the message it was given and its error. -/
structure StageFailure (m : Type → Type) (μ ο : Type) where
  stage : Stage m μ ο
  input : μ
  error : Fault

variable {m : Type → Type} {μ ο : Type} [Monad m]

namespace Stage

/-- Check a message, then process it. -/
def run (stage : Stage m μ ο) (msg : μ) : m (Except Fault μ) := do
  match ← stage.check msg with
  | .error e => return .error e
  | .ok _ => stage.process msg

end Stage

namespace StageFailure

/-- The record of a failure. -/
def record (failure : StageFailure m μ ο) (pipeline : String) : Record :=
  { level := .debug, target := "tether_core::pipeline", message := "Pipeline stage failed.",
    fields := [("pipeline", .text pipeline), ("stage", .text failure.stage.name),
      ("error", .text failure.error.text)] }

/-- The result of a run that failed. -/
def resolve (failure : StageFailure m μ ο) (pipeline : String) (log : Record → m Unit) :
    m (Except Fault ο) := do
  log (failure.record pipeline)
  match failure.stage.recover with
  | none => return .error failure.error
  | some recover => recover failure.input failure.error

end StageFailure

namespace Sequence

/-- Push a message through the stages up to the first that fails. -/
def run : List (Stage m μ μ) → μ → m (Except (StageFailure m μ μ) μ)
  | [], msg => return .ok msg
  | stage :: rest, msg => do
    match ← stage.run msg with
    | .error e => return .error ⟨stage, msg, e⟩
    | .ok output => run rest output

/-- Chain the stages. -/
def process (name : String) (log : Record → m Unit) (stages : List (Stage m μ μ)) (msg : μ) :
    m (Except Fault μ) := do
  match ← run stages msg with
  | .ok output => return .ok output
  | .error failure => failure.resolve name log

end Sequence

namespace Parallel

/-- Give a message to the stages up to the first that fails. -/
def run : List (Stage m μ (List μ)) → μ → m (Except (StageFailure m μ (List μ)) (List μ))
  | [], _ => return .ok []
  | stage :: rest, msg => do
    match ← stage.run msg with
    | .error e => return .error ⟨stage, msg, e⟩
    | .ok output => return (← run rest msg).map (output :: ·)

/-- Give the message to every stage and list what they make. -/
def process (name : String) (log : Record → m Unit) (stages : List (Stage m μ (List μ)))
    (msg : μ) : m (Except Fault (List μ)) := do
  match ← run stages msg with
  | .ok outputs => return .ok outputs
  | .error failure => failure.resolve name log

end Parallel

end Overseer
