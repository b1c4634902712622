import Overseer.Config.Runtime
import Overseer.Logging
import Overseer.Simulation.Session

/-!
# The demo program

A small service that supervises a heartbeat until it is asked to stop by a signal. `Demo.launch`
loads the settings, makes the pool and starts the process; `Demo.elapse` and `Demo.deliver` let
time pass and signals come. Each says what was logged and, once the program is over, with which
exit code.
-/

namespace Overseer.Demo

open Simulation

/-- The name of the process and of its pool. -/
def name : String := "tether-demo"

def target : String := "tether_demo"

/-- The period of the stages of the heartbeat. -/
def stagePeriod : Duration := .ofSecs 1

/-- How far the program has come. -/
inductive State where
  | running (w : World)
  /-- The program is over. A program that was killed by a signal has no exit code. -/
  | ended (code : Option Nat)

/-- The state of the program, and what was logged on the way. -/
structure Progress where
  state : State
  records : List Record := []

/-- The record of a program that fails. -/
def failureRecord (f : Fault) : Record :=
  { level := .error, target := target, message := f.report }

/-- The record before the process starts. -/
def startingRecord (capacity : Int) (period : Duration) : Record :=
  { level := .info, target := target, message := "tether-demo starting...",
    fields := [("pool_capacity", .number capacity), ("period_ms", .number period.millis)] }

/-- The record at the end. -/
def stoppedRecord : Record :=
  { level := .info, target := target, message := "tether-demo stopped." }

def failed (records : List Record) (f : Fault) : Progress :=
  { state := .ended (some 1), records := records ++ [failureRecord f] }

/-- The process: a heartbeat that is registered under an alias, with a warning if it fails. -/
def process (period : Duration) : ProcessScript where
  key := "heartbeat"
  name := name
  pool := some "pool"
  options := {
    aliasName := some "heartbeat"
    period := some period.millis
    onError := some .warn }
  args := [.duration stagePeriod]

/-- The number of the step that runs the process. -/
def processStep : Nat := 2

/-- Performs steps from number `i` on. Gives the answer of the process, if it has one. -/
def performFrom (w : World) (i : Nat) : List Step → World × List Record × Option Answer
  | [] => (w, [], none)
  | step :: rest =>
    let (w, report) := w.report i step
    let finished := (report.done.find? (·.1 == processStep)).map (·.2)
    let own := if i == processStep && report.answer != .pending then some report.answer else none
    let (w, records, answer) := performFrom w (i + 1) rest
    (w, report.records ++ records, finished.orElse fun _ => own.orElse fun _ => answer)

/-- What has become of the program after some steps. -/
def after (earlier : List Record) (outcome : World × List Record × Option Answer) : Progress :=
  let (w, records, answer) := outcome
  let records := earlier ++ records
  match answer with
  | none => { state := .running w, records }
  | some (.failure f) => failed records f.toFault
  | some (.panic _) => { state := .ended (some 101), records }
  | some _ => { state := .ended (some 0), records := records ++ [stoppedRecord] }

/-- Starts the program with the settings that a file and the environment give. -/
def launch (file : Option File) (environment : List (String × String)) : Progress :=
  match RuntimeSettings.load file environment with
  | .error e => failed [] (e.toFault.within "Failed to load configuration.")
  | .ok s =>
    let built : Except PoolError (Pool Job) := s.workerPool.build name 0
    match s.workerPool.toOptions name, built with
    | .error e, _ | _, .error e =>
      failed [] ((Fault.mk e.message []).within "Failed to create worker pool.")
    | .ok options, .ok pool =>
      after [startingRecord pool.cap s.defaultPeriod]
        (performFrom .fresh 0 [
          .poolNew "pool" { capacity := s.workerPool.capacity, options },
          .heartbeat "heartbeat",
          .processRun (process s.defaultPeriod)])

/-- Lets something happen to a program that is running. -/
def perform (s : State) (step : Step) : Progress :=
  match s with
  | .running w => after [] (performFrom w (processStep + 1) [step])
  | .ended code => { state := .ended code }

/-- Lets milliseconds pass. -/
def elapse (s : State) (ms : Nat) : Progress := perform s (.advance ms)

/-- A signal comes. One that the process does not listen for kills the program. -/
def deliver (s : State) (signal : Int) : Progress :=
  if (process ⟨0⟩).signals.contains signal then perform s (.signal signal)
  else
    match s with
    | .running _ => { state := .ended none }
    | .ended code => { state := .ended code }

/-- The records that are printed. -/
def printed (environment : List (String × String)) (p : Progress) : List Record :=
  p.records.filter (LogSetup.ofVariables (some .info) environment).filter.admits

end Overseer.Demo
