import PodAttach.Kernel.Ask
import PodAttach.System.FileTree

/-!
# A machine to rehearse on

Namespaces with nothing in them, found under the paths of a tree of files,
and a kernel that can be told to fail.  Every armed fault lets some requests
of its kind pass, and then fails some.
-/

namespace PodAttach.Scenario

open Kernel

/-- The kinds of requests that can be made to fail. -/
inductive RequestKind where
  | socket
  | newLink
  | getLink
  | setLink
  | delLink
  | newAddress
  | newRoute
  deriving DecidableEq, Repr, Inhabited

/-- The kind of a request. -/
def RequestKind.of : Request → RequestKind
  | .newLink .. => .newLink
  | .getLink _ => .getLink
  | .setLink .. => .setLink
  | .delLink _ => .delLink
  | .newAddress .. => .newAddress
  | .newRoute .. => .newRoute

/-- An armed fault. -/
structure KernelFault where
  kind : RequestKind
  errno : Errno
  /-- How many requests pass before the first one fails. -/
  after : Nat := 0
  /-- How many fail then. -/
  count : Nat := 1
  deriving DecidableEq, Repr, Inhabited

/-- The machine. -/
structure Netlab where
  machine : Machine := {}
  /-- The namespace of the agent. -/
  own : Space := ""
  /-- The files. -/
  tree : FileTree := .dir []
  /-- The paths of namespaces. -/
  namespaces : List (List String × Space) := []
  /-- The faults in the order in which they were armed. -/
  faults : List KernelFault := []
  deriving Repr, Inhabited

namespace Netlab

/-- The error of the first armed fault that is due, and the faults after the request. -/
def passFaults (kind : RequestKind) : List KernelFault → Option Errno × List KernelFault
  | [] => (none, [])
  | f :: rest =>
    if f.kind ≠ kind then
      let (e, rest) := passFaults kind rest
      (e, f :: rest)
    else if 0 < f.after then
      let (e, rest) := passFaults kind rest
      (e, { f with after := f.after - 1 } :: rest)
    else if 0 < f.count then (some f.errno, { f with count := f.count - 1 } :: rest)
    else
      let (e, rest) := passFaults kind rest
      (e, f :: rest)

/-- The error that a request of a kind gets, if a fault is due. -/
def fault (n : Netlab) (kind : RequestKind) : Option Errno × Netlab :=
  let (e, faults) := passFaults kind n.faults
  (e, { n with faults })

/-- What a path leads to. -/
def openPath (n : Netlab) (path : String) : Except Errno NsFile :=
  match n.tree.follow [] (FileTree.namesOf path) with
  | .error e => .error e
  | .ok names => match n.namespaces.lookup names with
    | some space => .ok (.space space)
    | none => .ok .other

/-- Opens a socket. -/
def openSocket (n : Netlab) : Option NsFile → Except Errno Space × Netlab
  | some .other => (.error .invalidArgument, n)
  | netns =>
    match n.fault .socket with
    | (some e, n) => (.error e, n)
    | (none, n) => match netns with
      | some (.space space) => (.ok space, n)
      | _ => (.ok n.own, n)

/-- Makes a request. -/
def request (n : Netlab) (space : Space) (r : Request) : r.Reply × Netlab :=
  match n.fault (.of r) with
  | (some e, n) => (.error e, n)
  | (none, n) =>
    let (reply, machine) := n.machine.serve space r
    (reply, { n with machine })

/-- Answers what is asked. -/
def answer (q : Ask) (n : Netlab) : q.Reply × Netlab :=
  match q with
  | .openPath path => (n.openPath path, n)
  | .socket netns => n.openSocket netns
  | .request space r => n.request space r

/-- Does a piece of work. -/
def perform {ε α : Type} (n : Netlab) (w : Work ε α) : Except ε α × Netlab :=
  Proc.run answer w.run n

/-- Removes a link behind the agent's back. -/
def removeLink (n : Netlab) (space : Space) (name : String) : Netlab :=
  match n.machine.named? space name with
  | some l => { n with machine := n.machine.removeLink l }
  | none => n

/-- The number of a link; zero if there is none of that name. -/
def indexOf (n : Netlab) (space : Space) (name : String) : Nat :=
  ((n.machine.named? space name).map (·.index)).getD 0

/-- A machine with namespaces under the directory of a path, and a plain file beside them; the
first is the agent's own. -/
def ofSpaces (directory : List String) (own : Space) (others : List Space) : Netlab :=
  let spaces := own :: others
  let paths := spaces.map fun space => directory ++ [space]
  { machine := .ofSpaces spaces
    own
    tree := (paths ++ [directory ++ ["file"]]).foldl
      (fun t path => FileTree.put (.file []) path t) (.dir [])
    namespaces := paths.zip spaces }

end Netlab

end PodAttach.Scenario
