import PodAttach.Kernel.Request
import PodAttach.Proc

/-!
# Asking the kernel

A namespace is opened by a path.  Requests go through a socket, which
belongs to the namespace in which it was opened.
-/

namespace PodAttach.Kernel

/-- What is asked of the kernel. -/
inductive Ask where
  /-- Opens what a path leads to. -/
  | openPath (path : String)
  /-- Opens a socket, in another namespace than the agent's own or not. -/
  | socket (netns : Option NsFile)
  /-- Makes a request through a socket of a namespace. -/
  | request (space : Space) (r : Request)
  deriving DecidableEq, Repr, Inhabited

/-- The answer. -/
def Ask.Reply : Ask → Type
  | .openPath _ => Except Errno NsFile
  | .socket _ => Except Errno Space
  | .request _ r => r.Reply

/-- What is done with the kernel, step by step; it may end with an error. -/
abbrev Work (ε α : Type) : Type :=
  ExceptT ε (Proc Ask Ask.Reply) α

namespace Work

variable {ε α : Type}

/-- Asks one question. -/
def ask (q : Ask) : Work ε q.Reply :=
  ExceptT.lift (.question q)

/-- What an answer gives, or the error that it means. -/
def orFail (wrap : Errno → ε) : Except Errno α → Work ε α
  | .ok a => pure a
  | .error e => throw (wrap e)

/-- Makes a request. -/
def request (space : Space) (r : Request) (wrap : Errno → ε) : Work ε r.Value := do
  orFail wrap (← ask (.request space r))

end Work

end PodAttach.Kernel
