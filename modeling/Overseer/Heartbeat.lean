import Overseer.Argument
import Overseer.Pipeline
import Overseer.Supervision.Options

/-!
# The heartbeat

A root task that pushes a counter through a sequence of two arithmetic stages on every tick. The
first multiplies by three, the second rejects even numbers and adds seven to odd ones; what it
rejects passes unchanged. The counter and all results are numbers of 64 bits.
-/

namespace Overseer.Heartbeat

/-- One more than the largest number of 64 bits. -/
def bound : Nat := Word.count 64

/-- The name of the sequence of stages. -/
def pipelineName : String := "heartbeat-stages"

/-- How many ticks go by between two reports. -/
def reportEvery : Nat := 1000

/-- The period of the stages if the task is given none. -/
def defaultStagePeriod : Duration := .ofSecs 1

/-- The period of the stages: the first argument, if it is a span of time. -/
def stagePeriod (args : List Argument) : Duration :=
  match Argument.find? args 0 .duration with
  | some (.duration d) => d
  | _ => defaultStagePeriod

def target : String := "tether_demo::heartbeat"

/-- The record of the heartbeat after its stages have started. -/
def startedRecord (stages : Nat) : Record :=
  { level := .info, target := target, message := "Heartbeat initialized.",
    fields := [("stages", .number stages)] }

/-- The report about a tick. -/
def tickRecord (tick value : Nat) : Record :=
  { level := .info, target := target, message := "Heartbeat.",
    fields := [("tick", .number tick), ("value", .number value)] }

/-- The record of the end of the heartbeat. -/
def stoppedRecord (ticks : Nat) : Record :=
  { level := .info, target := target, message := "Heartbeat stopped.",
    fields := [("ticks", .number ticks)] }

/-- The record of a number that the second stage did not take. -/
def skippedRecord (value : Nat) (error : Fault) : Record :=
  { level := .debug, target := target, message := "Offset skipped.",
    fields := [("value", .number value), ("error", .text error.text)] }

/-- The monad of the stages: they log, and may panic. -/
abbrev StageM := ExceptT Payload (StateM (List Record))

def log (r : Record) : StageM Unit := modify (· ++ [r])

/-- Multiply by `factor`, or fail if the product is too large. -/
def scale (factor : Nat) : Stage StageM Nat Nat where
  name := "scale"
  check _ := return .ok ()
  process msg :=
    if msg * factor < bound then return .ok (msg * factor)
    else return .error ⟨toString msg ++ " * " ++ toString factor ++ " overflows", []⟩

/-- Reject even numbers, and add `amount` to odd ones. A sum that is too large is a panic. -/
def offset (amount : Nat) : Stage StageM Nat Nat where
  name := "offset"
  check msg :=
    if msg % 2 == 0 then return .error ⟨toString msg ++ " is even", []⟩ else return .ok ()
  process msg :=
    if msg + amount < bound then return .ok (msg + amount)
    else throw (.text "attempt to add with overflow")
  recover := some fun value error => do
    log (skippedRecord value error)
    return .ok value

/-- The stages in their order. -/
def stages : List (Stage StageM Nat Nat) := [scale 3, offset 7]

/-- Push a tick through the stages that are still there. -/
def process (present : List (Stage StageM Nat Nat)) (tick : Nat) : StageM (Except Fault Nat) :=
  Sequence.process pipelineName log present tick

end Overseer.Heartbeat
