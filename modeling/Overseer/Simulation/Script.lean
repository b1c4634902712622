import Overseer.Argument
import Overseer.Extension.Basic
import Overseer.Fault
import Overseer.Pool.Options
import Overseer.Process

/-!
# Scripts

What a simulation is told: tasks whose code is a script, actions that this code takes, units of
work, and the steps of a session. Everything is referred to by the names that the session gives.
-/

namespace Overseer.Simulation

/-- What is done with the error of a task that failed. -/
inductive Callback where
  /-- Tell. -/
  | report
  /-- Tell, then panic. -/
  | panic
  /-- Log a warning. -/
  | warn
  deriving DecidableEq, Repr

/-- The options of a registration, in the names of a session. -/
structure OptionScript where
  /-- In the order in which they are added. -/
  priorities : List Nat := []
  aliasName : Option String := none
  period : Option Nat := none
  pool : Option String := none
  onError : Option Callback := none
  deriving DecidableEq, Repr

/-- What an action is about. `τ` is how a task is described that is made on the way. -/
inductive ActionOf (τ : Type) where
  | register (sup key : String) (task : Option τ) (options : OptionScript) (args : List Argument)
  | init (sup : String)
  | destroy (sup : String)
  | unregister (sup key : String)
  | pipeUnregister (pipe key : String)
  | cancel (token : String)
  | release (pool : String)
  | count (sup : String)

namespace ActionOf

variable {τ : Type}

def verb : ActionOf τ → String
  | register .. => "register"
  | init _ => "init"
  | destroy _ => "destroy"
  | unregister .. => "unregister"
  | pipeUnregister .. => "pipe.unregister"
  | cancel _ => "cancel"
  | release _ => "release"
  | count _ => "count"

end ActionOf

/-- The `init` of a task. -/
structure InitScript (τ : Type) where
  delay : Option Nat := none
  need : Option (Nat × ArgumentKind) := none
  panic : Option Payload := none
  fail : Option String := none
  act : List (ActionOf τ) := []
  propagate : Bool := false

/-- The `run_once` of a task. Some of it happens only in a run of a certain number. -/
structure RunScript (τ : Type) where
  delay : Nat := 0
  waitCancel : Bool := false
  cancelError : Option String := none
  actAt : Option Nat := none
  act : Option (ActionOf τ) := none
  propagate : Bool := false
  panicAt : Option Nat := none
  panic : Option Payload := none
  failAt : Option Nat := none

/-- The `destroy` of a task. -/
structure DestroyScript (τ : Type) where
  act : List (ActionOf τ) := []
  panic : Option Payload := none

/-- What a task does with messages. -/
structure MessageScript where
  /-- Reject messages that contain this. -/
  reject : Option String := none
  /-- Fail on messages that contain this. -/
  choke : Option String := none
  /-- Panic on this message. -/
  panicOn : Option String := none
  /-- Read messages as numbers and add this. -/
  add : Option Int := none
  append : String := ""
  deriving DecidableEq, Repr

/-- A scripted task. -/
structure TaskScript where
  name : Option String := none
  userData : Option String := none
  init : InitScript TaskScript := {}
  run : RunScript TaskScript := {}
  destroy : DestroyScript TaskScript := {}
  messages : MessageScript := {}

abbrev Action := ActionOf TaskScript

/-- What a stage makes of a message that failed. -/
inductive RecoveryKind where
  | echo | wrap | const | same | fail
  deriving DecidableEq, Repr

/-- The recovery of a stage: an action first, if there is one. -/
structure RecoveryScript where
  kind : RecoveryKind
  act : Option Action := none

/-- What a unit of work does between its start and its end. -/
inductive UnitKind where
  | now
  | gate
  | sleep (ms : Nat)
  deriving DecidableEq, Repr

/-- A unit of work. -/
structure UnitScript where
  name : String
  kind : UnitKind := .now
  panic : Option Payload := none
  deriving DecidableEq, Repr

/-- A new pool. -/
structure PoolScript where
  capacity : Int
  options : PoolOptions := {}
  deriving DecidableEq, Repr

/-- What a new set is given. -/
structure SetScript where
  name : String
  pool : Option String := none
  token : Option String := none
  deriving DecidableEq, Repr

/-- The stages of a pipeline are chained or stand side by side. -/
inductive Shape where
  | sequence | parallel
  deriving DecidableEq, Repr

/-- A stage that is registered with a pipeline. -/
structure StageScript where
  /-- The key of the task; without one a task that defines nothing is made. -/
  key : Option String
  order : Option Nat := none
  options : OptionScript := {}
  recovery : Option RecoveryScript := none
  args : List Argument := []

/-- A process to run. -/
structure ProcessScript where
  key : String
  name : String := "process"
  pool : Option String := none
  token : Option String := none
  handleSignals : Bool := true
  signals : List Int := [2, 15]
  options : OptionScript := {}
  args : List Argument := []

/-- How an extension makes its tasks. -/
inductive FactoryScript where
  /-- Scripted tasks with numbered keys. -/
  | make (key : String) (task : TaskScript)
  | fail (text : String)

/-- One step of a session. -/
inductive Step where
  | advance (ms : Nat)
  | token (key : String)
  | cancel (key : String)
  | newRuntime
  | unitOpen (unit : String)
  | task (key : String) (script : TaskScript)
  | bare (key : String)
  | heartbeat (key : String)
  | name (key : String)
  | userData (key : String)
  | poolNew (id : String) (script : PoolScript)
  | poolDefault (id : String)
  | poolClone (id copy : String)
  | poolDrop (id : String)
  | poolName (id : String)
  | poolDebug (id : String)
  | poolTune (id : String) (size : Int)
  | poolRelease (id : String)
  | poolReboot (id : String)
  | poolReleaseTimeout (id : String) (ms : Nat)
  | poolSubmit (id : String) (unit : UnitScript)
  | globalSubmit (id : String) (unit : UnitScript)
  | globalCounts
  | globalRelease
  | globalReboot
  | supNew (id : String) (script : SetScript)
  | supName (id : String)
  | supRegister (id key : String) (options : OptionScript) (args : List Argument)
  | supRegisterExtension (id ext name : String) (options : OptionScript) (args : List Argument)
  | supUnregister (id key : String)
  | supInit (id : String)
  | supDestroy (id : String)
  | supForEach (id : String) (limit : Option Nat) (unregister : Bool)
  | supAlias (id aliasName : String)
  | supContains (id key : String)
  | supCount (id : String)
  | supClone (id copy : String)
  | supDrop (id : String)
  | pipeNew (shape : Shape) (id : String) (script : SetScript)
  | pipeRegister (id : String) (stage : StageScript)
  | pipeUnregister (id key : String)
  | pipeInit (id : String)
  | pipeDestroy (id : String)
  | pipeProcess (id msg : String)
  | pipeByOrder (id : String) (order : Nat)
  | pipeForEach (id : String) (limit : Option Nat)
  | pipeContains (id key : String)
  | pipeCount (id : String)
  | pipeName (id : String)
  | pipeDebug (id : String)
  | pipeDrop (id : String)
  | extNew (id : String)
  | extFactory (id name : String) (factory : FactoryScript)
  | extExports (id name key : String) (script : TaskScript) (set : ExportSet)
  | extNames (id : String)
  | extDebug (id : String)
  | extLoad (id name : String) (as? : Option String)
  | processRun (script : ProcessScript)
  | signal (number : Int)
  /-- A step that nobody knows. -/
  | unknown (verb : String)

end Overseer.Simulation
