import Overseer.Simulation.Machine
import Overseer.Simulation.References

/-!
# Taking turns

Fibers run on one thread. `settle` gives turns until no fiber can go on without time or an outside
action. Those that another fiber or a deadline has let go on come first, in the order in which
that happened; those that an outside action has let go on come when there are no others.
`advance` lets time pass, from one deadline to the next. `newRuntime` drops every fiber at once.
-/

namespace Overseer.Simulation

namespace World

/-- How many instructions a fiber may carry out in one turn. -/
def turnFuel : Nat := 1000000

/-- How many turns there may be before nothing can go on. -/
def settleFuel : Nat := 1000000

/-- Carry out code at once, outside of any fiber. -/
def runNow (w : World) (code : List Instr) : World × Flow :=
  let outcome := w.run turnFuel code (.ok .ok)
  (outcome.world, outcome.flow)

/-- Drop the pools and sets that nothing refers to, one after the other. -/
def dropLost (fuel : Nat) (w : World) : World :=
  match fuel with
  | 0 => w
  | fuel + 1 =>
    if w.allNamed then w
    else
      match w.lostSet? with
      | some s =>
        let (w, code) := w.onSet s TaskSet.drop
        dropLost fuel (w.runNow code).1
      | none =>
        match w.lostPool? with
        | some p => dropLost fuel (w.onPool p Pool.drop)
        | none => w

/-- Drop what nothing refers to. -/
def tidy (w : World) : World := w.dropLost (w.sets.size + w.pools.size)

/-- A fiber waits after its turn. -/
def park (w : World) (id : FiberId) (code : List Instr) (flow : Flow) (wait : Wait) : World :=
  let parked (f : Fiber) : Fiber :=
    if f.id == id then { f with code := code, flow := flow, wait := some wait, since := w.nextWait }
    else f
  { w with nextWait := w.nextWait + 1, fibers := w.fibers.map parked }

/-- A fiber gets its turn. -/
def turn (w : World) (id : FiberId) : World :=
  match w.fibers.find? (·.id == id) with
  | none => w
  | some f =>
    let outcome := w.run turnFuel f.code f.flow
    match outcome.wait with
    | none => (outcome.world.removeFiber id).tidy
    | some wait => (outcome.world.park id outcome.code outcome.flow wait).tidy

/-- Give turns until nobody waits for one, but no more than `fuel`. -/
def settleUpTo (fuel : Nat) (w : World) : World :=
  match fuel, w.queue with
  | 0, _ => w
  | fuel + 1, [] =>
    match w.arrivals with
    | [] => w
    | id :: rest => settleUpTo fuel ({ w with arrivals := rest }.turn id)
  | fuel + 1, id :: rest => settleUpTo fuel ({ w with queue := rest }.turn id)

/-- After an outside action: the fibers that it let go on have arrived from outside. -/
def arrive (w : World) : World := { w with queue := [], arrivals := w.arrivals ++ w.queue }

/-- Give turns until no fiber can go on by itself. -/
def settle (w : World) : World := w.settleUpTo settleFuel

/-- Pass from deadline to deadline up to the time `limit`, at most `fuel` times. -/
def passUpTo (fuel : Nat) (w : World) (limit : Nat) : World :=
  match fuel with
  | 0 => { w with now := limit }
  | fuel + 1 =>
    match w.nextDeadline? limit with
    | none => { w with now := limit }
    | some deadline =>
      passUpTo fuel ({ w with now := max w.now deadline }.wakeDue.settle) limit

/-- Let time pass. Every deadline on the way is met in its own millisecond. -/
def advance (w : World) (ms : Nat) : World := w.passUpTo (ms + 1) (w.now + ms)

/-- An instruction that was left is dropped with its fiber. -/
def dropInstr (w : World) : Instr → World
  | .pollCall s c => (w.onSet s fun set => set.abandon c).1
  | .initEnd s c => (w.onSet s fun set => set.abandon c).1
  | .pollLoop s l => (w.onSet s fun set => set.killLoop l).1
  | .runEnd s l => (w.onSet s fun set => set.killLoop l).1
  | .reported s l _ => (w.onSet s fun set => set.killLoop l).1
  | .awaitCaller p c => w.onPool p fun pool => pool.abandon c
  | .pollWorker p x => w.onPool p fun pool => pool.killWorker x
  | .unitEnd p x => w.onPool p fun pool => pool.killWorker x
  | .pollScavenger p s => w.onPool p fun pool => pool.killScavenger s
  | .finish step => { w with finished := w.finished ++ [(step, .cancelled)] }
  | _ => w

/-- Drop every fiber, the oldest first. -/
def newRuntime (w : World) : World :=
  let w := w.fibers.foldl (fun w f => f.code.foldl dropInstr w) w
  { w with fibers := [], queue := [], arrivals := [] }.tidy

/-- A signal of the system reaches the fibers that listen for it. -/
def deliver (w : World) (number : Int) : World :=
  let hears (f : Fiber) : Bool :=
    f.wait.any fun wait => wait.signals.contains (.system number)
  let w' := w.wake (.system number)
  let heard := (w.fibers.filter hears).map (·.id)
  { w' with fibers := w'.fibers.map fun f =>
      if heard.contains f.id then
        match f.code with
        | .listen n t :: rest => { f with code := .received n t :: rest }
        | _ => f
      else f }

end World

end Overseer.Simulation
