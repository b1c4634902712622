import Overseer.Pipeline
import Overseer.Simulation.Scheduler
import Overseer.Text.Integer

/-!
# Messages

The stages of a simulated pipeline. Their messages are strings, and what a stage does with them
is part of the script of its task.
-/

namespace Overseer.Simulation

/-- The monad of stages: they change the world, and may panic. -/
abbrev StageM := ExceptT Payload (StateM World)

/-- A range of signed numbers of 64 bits. -/
def fits (n : Int) : Bool := Word.isSigned 63 n

namespace MessageScript

/-- May the stage called `name` process the message? -/
def check (script : MessageScript) (name msg : String) : Except Fault Unit :=
  if script.reject.any (Text.occursIn · msg) then
    .error ⟨"'" ++ msg ++ "' rejected by " ++ name, []⟩
  else .ok ()

/-- The sum of a message and a number. -/
def sum (n : Int) (msg : String) : Except Fault String :=
  match Text.int64? msg with
  | none => .error ⟨"'" ++ msg ++ "' is not a number", []⟩
  | some a =>
    if fits (a + n) then .ok (toString (a + n))
    else .error ⟨toString a ++ " + " ++ toString n ++ " overflows", []⟩

/-- What the stage called `name` makes of a message. -/
def process (script : MessageScript) (name msg : String) : Ending String :=
  if script.choke.any (Text.occursIn · msg) then
    .fault ⟨name ++ " choked on '" ++ msg ++ "'", []⟩
  else if script.panicOn == some msg then
    .panic (.text (name ++ " panicked on '" ++ msg ++ "'"))
  else
    match script.add with
    | none => .value (msg ++ script.append)
    | some n =>
      match sum n msg with
      | .ok s => .value s
      | .error f => .fault f

end MessageScript

namespace World

/-- May the task process the message? -/
def checkMessage (t : TaskId) (msg : String) : StageM (Except Fault Unit) := do
  let w ← get
  match w.script? t with
  | some (_, script) => return script.messages.check (w.taskName t) msg
  | none => return .ok ()

/-- What the task makes of a message. A task without a script leaves it as it is. -/
def processMessage (t : TaskId) (msg : String) : StageM (Except Fault String) := do
  let w ← get
  match w.script? t with
  | none => return .ok msg
  | some (counted, script) =>
    set (w.tally counted .processed)
    match script.messages.process (w.taskName t) msg with
    | .value s => return .ok s
    | .fault f => return .error f
    | .panic p => throw p

/-- What a recovery makes of a message that failed. Its action comes first. -/
def recoverMessage (script : RecoveryScript) (msg : String) (error : Fault) :
    StageM (Except Fault String) := do
  match script.act with
  | none => pure ()
  | some a =>
    let w ← get
    let (w, flow) := w.runNow (actions "recovery" false [a])
    set w
    match flow with
    | .panic p => throw p
    | _ => pure ()
  match script.kind with
  | .echo => return .ok msg
  | .wrap => return .ok (msg ++ " (recovered: " ++ error.text ++ ")")
  | .const => return .ok "const"
  | .same => return .error error
  | .fail => return .error ⟨"unrecoverable: " ++ error.text, []⟩

def logMessage (r : Record) : StageM Unit := modify (·.log r)

/-- The stage of a registration. `whole` makes the result of the pipeline from a message. -/
def stageOf {ο : Type} (w : World) (whole : String → ο)
    (r : Registration Callback (Option RecoveryScript)) : Stage StageM String ο where
  name := w.taskName r.task.id
  check := checkMessage r.task.id
  process := processMessage r.task.id
  recover := r.extra.map fun script msg error => do
    return (← recoverMessage script msg error).map whole

/-- Push a message through a pipeline. -/
def process (w : World) (s : SetId) (shape : Shape) (msg : String) : World × Answer :=
  match w.set? s with
  | none => (w, .null)
  | some set =>
    match shape with
    | .sequence =>
      let stages := set.registry.map (w.stageOf id)
      match (Sequence.process set.name logMessage stages msg).run w with
      | (.ok (.ok out), w) => (w, .message out)
      | (.ok (.error f), w) => (w, .failure (.fault f))
      | (.error p, w) => (w, .panic p)
    | .parallel =>
      let stages := set.registry.map (w.stageOf fun out => [out])
      match (Parallel.process set.name logMessage stages msg).run w with
      | (.ok (.ok outs), w) => (w, .messages outs)
      | (.ok (.error f), w) => (w, .failure (.fault f))
      | (.error p, w) => (w, .panic p)

end World

end Overseer.Simulation
