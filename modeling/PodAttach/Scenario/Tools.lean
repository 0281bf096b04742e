import PodAttach.Switch.Driven
import PodAttach.System.Errno

/-!
# Scripted tools

Tools that print what a script says: the replies are used one after the
other, and the last one again and again.  Every run is written down with
what the tool read.
-/

namespace PodAttach.Scenario

open Switch

/-- What a run of a scripted tool does. -/
structure ToolReply where
  stdout : Bytes := []
  stderr : Bytes := []
  /-- Whether it ends with success. -/
  success : Bool := true
  /-- Whether it never ends. -/
  hangs : Bool := false
  /-- Whether it ends without reading its input. -/
  deaf : Bool := false
  deriving DecidableEq, Repr, Inhabited

/-- A run that was made. -/
structure ToolRun where
  program : String
  args : List String
  stdin : Bytes
  deriving DecidableEq, Repr, Inhabited

/-- Why a tool cannot be started at all. -/
inductive ToolState where
  | present
  | missing
  | notExecutable
  deriving DecidableEq, Repr, Inhabited

/-- Scripted tools. -/
structure Toolbox where
  state : ToolState := .present
  replies : List ToolReply := []
  /-- The runs so far, the last one first. -/
  runs : List ToolRun := []
  /-- The time that has passed. -/
  clock : Duration := .zero
  deriving DecidableEq, Repr, Inhabited

namespace Toolbox

/-- The reply to the next run, and the replies after that. -/
def nextReply : List ToolReply → ToolReply × List ToolReply
  | [] => ({}, [])
  | [r] => (r, [r])
  | r :: rest => (r, rest)

/-- The bytes that a pipe holds when nobody reads from it. -/
def pipeSize : Nat := 65536

/-- Whether an argument cannot be handed to a program. -/
def hasNul (s : String) : Bool :=
  s.toList.any fun c => c.toNat == 0

/-- A run of a tool. -/
def run (t : Toolbox) (i : Invocation) : ToolOutcome × Toolbox :=
  if i.args.any hasNul then (.failed "nul byte found in provided data", t)
  else match t.state with
    | .missing => (.failed Errno.noEntry.message, t)
    | .notExecutable => (.failed Errno.accessDenied.message, t)
    | .present =>
      let (r, replies) := nextReply t.replies
      let input := Utf8.encode (i.input.getD "")
      let made : ToolRun := ⟨i.program, i.args, if r.deaf then [] else input⟩
      let t := { t with replies, runs := made :: t.runs }
      if r.hangs then (.timedOut, t)
      else if r.deaf && pipeSize < input.length then (.failed Errno.brokenPipe.message, t)
      else (.ended r.success r.stdout r.stderr, t)

/-- Answers what is asked for; runs take no time. -/
def answer (q : ToolAsk) (t : Toolbox) : q.Reply × Toolbox :=
  match q with
  | .run i => t.run i
  | .clock => (t.clock, t)
  | .sleep d => ((), { t with clock := t.clock + d })

/-- Does a piece of work with the tools. -/
def perform {α : Type} (t : Toolbox) (w : Toolwork α) : α × Toolbox :=
  Proc.run answer w t

end Toolbox

end PodAttach.Scenario
