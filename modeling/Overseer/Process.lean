import Overseer.Pool.Options
import Overseer.Record
import Overseer.Supervision.Error

/-!
# The process boundary

A process hosts a root task in a supervised set of its own until it is asked to stop, by a signal
or by a shutdown token, and then tears everything down in order. `next` is the whole of it: what
the process demands once the last thing it demanded is done.
-/

namespace Overseer

/-- A process as its owner describes it. -/
structure Process where
  /-- Also the name of the set of the root task. -/
  name : String := "process"
  /-- The pool for error callbacks. It is released at the end. -/
  pool : Option PoolId := none
  handleSignals : Bool := true
  /-- The signals that ask the process to stop. -/
  signals : List Int := [2, 15]
  deriving DecidableEq, Repr

/-- How far a process has come. -/
inductive ProcessPhase where
  | registering
  | initializing
  | serving
  /-- The set is being destroyed. The start of the process may have failed. -/
  | stopping (failure : Option SupervisionError)
  deriving DecidableEq, Repr

/-- What a process waits for, or its end. -/
inductive ProcessDemand where
  /-- Register the root task with the set. -/
  | register
  /-- Start the set. -/
  | init
  /-- Wait until the shutdown token is cancelled. -/
  | serve
  /-- Stop listening for signals and destroy the set. -/
  | destroy
  /-- Release the pool and return. -/
  | stop (result : Except Fault Unit)

namespace Process

def target : String := "tether_app::process"

/-- Signals that no program may handle. -/
def unhandled : List Int := [4, 8, 9, 11, 19]

/-- The largest number of a signal. -/
def lastSignal : Int := 64

/-- Signals that the system keeps to itself. -/
def reserved : List Int := [0, 32, 33]

/-- Why no handler can be set up for a signal. -/
def signalRefusal? (signal : Int) : Option String :=
  if signal < 0 || unhandled.contains signal then
    some ("Refusing to register signal " ++ toString signal)
  else if lastSignal < signal then some "signal too large"
  else if reserved.contains signal then some "Invalid argument (os error 22)"
  else none

/-- Why the signal handlers of a process cannot be set up. -/
def handlerFault? (p : Process) : Option Fault :=
  if p.handleSignals then
    p.signals.findSome? fun signal =>
      (signalRefusal? signal).map fun text =>
        ((Fault.mk text []).within
          ("Failed to set up handler for signal " ++ toString signal ++ ".")).within
          "Failed to configure signal handlers."
  else none

/-- The signals that the process listens for. -/
def listened (p : Process) : List Int := if p.handleSignals then p.signals else []

/-- Why a process cannot even begin. -/
def startFault? (p : Process) : Option Fault :=
  if p.name.isEmpty then some (SupervisionError.invalidName p.name).toFault else p.handlerFault?

def info (message : String) (fields : List (String × Field)) : Record :=
  { level := .info, target := target, message := message, fields := fields }

/-- The record of a signal that asks the process to stop. -/
def signalRecord (signal : Int) : Record :=
  info "Received signal, shutting down..." [("signal", .number signal)]

def nameField (p : Process) : String × Field := ("process", .text p.name)

/-- Go on after what was demanded in `phase` ended with `result`. The root task is called `root`.
The records come before the demand is met, or after it if the process stops. -/
def next (p : Process) (root : String) (phase : ProcessPhase)
    (result : Except SupervisionError Unit) :
    List Record × Option ProcessPhase × ProcessDemand :=
  match phase, result with
  | .registering, .ok _ => ([], some .initializing, .init)
  | .initializing, .ok _ =>
    ([info "Process started." [p.nameField, ("root", .text root)]], some .serving, .serve)
  | .serving, _ => ([info "Shutting down..." [p.nameField]], some (.stopping none), .destroy)
  | .stopping none, _ => ([info "Process stopped." [p.nameField]], none, .stop (.ok ()))
  | .stopping (some e), _ => ([], none, .stop (.error e.toFault))
  | .registering, .error e => failed e
  | .initializing, .error e => failed e
where
  /-- The root task could not be started. -/
  failed (e : SupervisionError) : List Record × Option ProcessPhase × ProcessDemand :=
    ([{ level := .error, target := target, message := "Process failed to start.",
        fields := [p.nameField, ("root", .text root), ("error", .text e.message)] }],
      some (.stopping (some e)), .destroy)

end Process

end Overseer
