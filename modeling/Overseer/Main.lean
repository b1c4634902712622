import Overseer.Demo

/-!
# The command line

Runs the demo program. The only argument is the path of a configuration file, which may be left
out. Signals are lines with numbers on standard input, and its end stands for the signal to
terminate. Between two lines as much time passes for the program as has passed outside.
-/

namespace Overseer.Main

/-- The environment variables that the program knows. -/
def knownVariables : List String :=
  let under (path : List String) : String :=
    RuntimeSettings.envPrefix ++ "_" ++ "__".intercalate (path.map String.toUpper)
  [LogSetup.levelVariable, LogSetup.jsonVariable]
    ++ RuntimeSettings.fields.map (fun f => under [f])
    ++ PoolSettings.fields.map (fun f => under ["worker_pool", f])

/-- The known variables that are set. -/
def environment : IO (List (String × String)) :=
  knownVariables.filterMapM fun name => do
    return (← IO.getEnv name).map fun value => (name, value)

/-- The file at a path. -/
def readFile (path : String) : IO File := do
  let contents ← try some <$> IO.FS.readBinFile path catch _ => pure none
  let fileName := (path.splitOn "/").getLastD path
  return { name := path, format := .ofName fileName, contents }

/-- The signal that a line of input stands for. -/
def signalOf (line : String) : Int :=
  if line.isEmpty then 15 else (Text.integer? (String.ofList (Text.trim line.toList))).getD 0

/-- Prints what was logged. -/
def print (setup : LogSetup) (p : Demo.Progress) : IO Unit :=
  (p.records.filter setup.filter.admits).forM fun r => IO.println (setup.line r)

/-- Hands signals to the program until it is over, and gives its exit code. -/
partial def serve (setup : LogSetup) (since : Nat) : Demo.State → IO UInt32
  | .ended code => return (code.getD 128).toUInt32
  | state => do
    let line ← (← IO.getStdin).getLine
    let now ← IO.monoMsNow
    let passed := Demo.elapse state (now - since)
    print setup passed
    let stopped := Demo.deliver passed.state (signalOf line)
    print setup stopped
    serve setup now stopped.state

end Overseer.Main

def main (args : List String) : IO UInt32 := do
  let environment ← Overseer.Main.environment
  match Overseer.LogSetup.install none none environment with
  | .error f =>
    IO.eprintln ("FATAL: failed to initialize logging: " ++ f.report)
    return 1
  | .ok setup =>
    let file ← args.head?.mapM Overseer.Main.readFile
    let start := Overseer.Demo.launch file environment
    Overseer.Main.print setup start
    Overseer.Main.serve setup (← IO.monoMsNow) start.state
