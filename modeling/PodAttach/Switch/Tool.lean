import PodAttach.Duration
import PodAttach.Proc
import PodAttach.Switch.Basic
import PodAttach.Text.Blank
import PodAttach.Text.Utf8

/-!
# The tools of the switch

The switch is driven by two programs.  A run of one of them gives the text
that it printed, or an error that says how it failed.
-/

namespace PodAttach.Switch

/-- A run of a tool. -/
structure Invocation where
  program : String
  args : List String
  /-- What it is given to read. -/
  input : Option String
  /-- How long it may take. -/
  limit : Duration
  deriving DecidableEq, Repr, Inhabited

/-- How a run ended. -/
inductive ToolOutcome where
  /-- It could not be started, or did not take its input. -/
  | failed (reason : String)
  /-- It took too long. -/
  | timedOut
  /-- It ended, with or without success, and printed something. -/
  | ended (success : Bool) (stdout stderr : Bytes)
  deriving DecidableEq, Repr, Inhabited

namespace Invocation

/-- The program and its arguments in one line. -/
def line (i : Invocation) : String :=
  String.intercalate " " (i.program :: i.args)

/-- What a run gives. -/
def interpret (i : Invocation) : ToolOutcome → Except Error String
  | .failed reason => .error (.spawn i.program reason)
  | .timedOut => .error (.timeout i.line i.limit.secs)
  | .ended true stdout _ => .ok (Utf8.decodeLossy stdout)
  | .ended false _ stderr => .error (.command i.line (Text.trim (Utf8.decodeLossy stderr)))

end Invocation

/-- What is asked for while the switch is driven. -/
inductive ToolAsk where
  /-- A run of a tool. -/
  | run (i : Invocation)
  /-- The time that has passed since some moment. -/
  | clock
  /-- Nothing, for some time. -/
  | sleep (d : Duration)
  deriving DecidableEq, Repr, Inhabited

/-- The answer. -/
def ToolAsk.Reply : ToolAsk → Type
  | .run _ => ToolOutcome
  | .clock => Duration
  | .sleep _ => Unit

/-- What is done with the tools, step by step. -/
abbrev Toolwork (α : Type) : Type :=
  Proc ToolAsk ToolAsk.Reply α

namespace Toolwork

/-- Runs a tool. -/
def run (i : Invocation) : Toolwork (Except Error String) :=
  i.interpret <$> (.question (ToolAsk.run i) : Toolwork ToolOutcome)

/-- The time that has passed since some moment. -/
def clock : Toolwork Duration :=
  .question ToolAsk.clock

/-- Waits. -/
def sleep (d : Duration) : Toolwork Unit :=
  .question (ToolAsk.sleep d)

end Toolwork

end PodAttach.Switch
