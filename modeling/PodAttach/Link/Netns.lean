import PodAttach.Kernel.Ask
import PodAttach.Link.Basic
import PodAttach.System.FileTree

/-!
# Namespaces by their paths

A namespace is named by an absolute path whose last part is a name.  It is
opened once, and then links are moved into it and sockets are opened in it.
-/

namespace PodAttach.Link

open Kernel

/-- Whether a path is absolute and ends with a name. -/
def isNamespacePath (path : String) : Bool :=
  path.toList.head? == some '/' &&
    match (FileTree.namesOf path).getLast? with
    | some name => name != ".."
    | none => false

/-- An error of the kernel where a namespace is entered. -/
def accessError (path : String) (e : Errno) : Error :=
  .namespaceAccess path e.message

/-- Opens a namespace. -/
def openNamespace (path : String) : Work Error NsFile :=
  if isNamespacePath path then do
    Work.orFail (accessError path) (← Work.ask (.openPath path))
  else throw (.namespaceAccess path "not an absolute namespace path")

/-- Opens a socket inside a namespace. -/
def socketIn (path : String) (netns : NsFile) : Work Error Space := do
  Work.orFail (accessError path) (← Work.ask (.socket (some netns)))

/-- Opens a socket in the agent's own namespace. -/
def ownSocket : Work Error Space := do
  Work.orFail (accessError "host") (← Work.ask (.socket none))

end PodAttach.Link
