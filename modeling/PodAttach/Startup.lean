import PodAttach.Config.Load
import PodAttach.Failure

/-!
# Starting the program

What the command line comes to: something is printed, or the program fails,
or it runs.
-/

namespace PodAttach

/-- What a command line comes to. -/
inductive Startup where
  /-- The program prints something, and ends with success. -/
  | printed (text : String)
  /-- The command line is refused. -/
  | refused
  /-- The program fails. -/
  | failed (f : Failure)
  /-- The program runs, with these settings. -/
  | running (settings : Config.Settings)
  deriving Inhabited

namespace Startup

/-- What is printed when the configuration was only to be looked at. -/
def validText : String := "Configuration is valid\n"

/-- What a command line comes to that was read. -/
def ofRead (c : Config.CommandLine) (s : Config.Sources) : Startup :=
  if c.has .printDefault then .printed Config.defaultFile
  else match Config.load s c with
    | .error e => .failed (.config e)
    | .ok settings => if c.has .validate then .printed validText else .running settings

/-- What a command line comes to. -/
def ofArgs (args : List String) (s : Config.Sources) : Startup :=
  match Config.CommandLine.parse args with
  | .error .help => .printed Config.helpText
  | .error .version => .printed Config.versionLine
  | .error _ => .refused
  | .ok c => ofRead c s

/-- What is printed. -/
def text : Startup → String
  | .printed text => text
  | _ => ""

/-- The number that the program ends with. -/
def exitCode : Startup → Nat
  | .printed _ | .running _ => 0
  | .failed _ => 1
  | .refused => 2

end Startup

end PodAttach
