import PodAttach.Plugin.Run
import PodAttach.Scenario.Run
import PodAttach.Startup

/-!
# The program

The command line, the environment and the configuration file are read here,
and what `Startup` makes of them is printed.  An agent that is to run serves
the requests that it is given on standard input, one on a line, on a node to
rehearse on.  Where the runtime says in a variable what it wants, the program
is the plugin; no agent is reachable from it then.
-/

namespace PodAttach.Program

/-! ## Reading -/

/-- The variables of some names, with their values. -/
def readVariables (names : List String) : IO (List (String × String)) :=
  names.filterMapM fun name => return (← IO.getEnv name).map (name, ·)

/-- The bytes of a file, if it can be read. -/
def readFile? (path : String) : IO (Option Bytes) := do
  try
    return some (← IO.FS.readBinFile path).toList
  catch _ =>
    return none

/-- The file that a command line names, with its bytes. -/
def readNamedFile (args : List String) : IO (List (String × Bytes)) := do
  match Config.CommandLine.parse args with
  | .error _ => return []
  | .ok c => match c.file? with
    | none => return []
    | some path => return ((← readFile? path).map (path, ·)).toList

/-- What settings are loaded from. -/
def readSources (args : List String) : IO Config.Sources := do
  let names := Config.usualOrder.map fun f => Config.variableStart ++ f.variable
  let env ← readVariables names
  let files ← readNamedFile args
  return ⟨fun path => files.lookup path, fun name => env.lookup name⟩

/-! ## Writing -/

/-- Writes bytes to standard output. -/
def write (bytes : Bytes) : IO Unit := do
  let out ← IO.getStdout
  out.write ⟨bytes.toArray⟩
  out.flush

/-! ## The agent -/

/-- Serves the requests on standard input until its end. -/
partial def serve (o : Agent.Options) (s : Scenario.Stage) : IO Unit := do
  let line ← (← IO.getStdin).getLine
  if line.isEmpty then return
  let (outcome, s) := Scenario.Run.one s (Scenario.Play.connection o (Utf8.encode line))
  match outcome with
  | .answered bytes => write bytes
  | _ => return
  serve o s

/-- Runs an agent: it goes through all attachments, then serves. -/
def runAgent (settings : Config.Settings) : IO Unit := do
  let (_, s) := Scenario.Run.one {} Scenario.Play.reconcile
  serve (.ofSettings settings) s

/-- Does what a command line comes to. -/
def start (args : List String) : IO UInt32 := do
  let startup := Startup.ofArgs args (← readSources args)
  write (Utf8.encode startup.text)
  match startup with
  | .failed f => IO.eprintln f.message
  | .running settings => runAgent settings
  | _ => pure ()
  return startup.exitCode.toUInt32

/-! ## The plugin -/

/-- The variables in which the runtime says what it wants. -/
def callVariables : List String := [
  "CNI_COMMAND", "CNI_CONTAINERID", "CNI_NETNS", "CNI_IFNAME", "CNI_ARGS", "CNI_PATH"]

/-- Standard input as a whole. -/
partial def readAll (input : IO.FS.Stream) (seen : Bytes) : IO Bytes := do
  let chunk ← input.read 65536
  if chunk.isEmpty then return seen else readAll input (seen ++ chunk.toList)

/-- Answers the runtime. -/
def call (env : List (String × String)) : IO UInt32 := do
  let s : Plugin.Start := ⟨fun name => env.lookup name, .ok []⟩
  let stdin ← if s.asksVersion then pure [] else readAll (← IO.getStdin) []
  let s := { s with stdin := .ok stdin }
  let agent := Cni.Peer.unreachable Errno.noEntry.message
  write (s.printed agent)
  return if s.succeeds agent fun _ => true then 0 else 1

end PodAttach.Program

/-- The program: the plugin if the runtime calls it, else the agent. -/
def main (args : List String) : IO UInt32 := do
  let env ← PodAttach.Program.readVariables PodAttach.Program.callVariables
  if env.isEmpty then PodAttach.Program.start args else PodAttach.Program.call env
