import PodAttach.Descriptor.Basic
import PodAttach.Descriptor.Error
import PodAttach.Proc
import PodAttach.System.FileTree

/-!
# Descriptors in a directory

The provisioning controller keeps one file for each pod,
`<root>/<namespace>/<name>.json`.  `lookUp` reads the one file of a pod by its
path, `get` does so in a directory that is given, and `pods` goes through all
directories and files below the root.
-/

namespace PodAttach

/-- A directory of descriptors. -/
structure DescriptorDir where
  /-- The path of the directory. -/
  root : String
  /-- What lies there, if anything. -/
  tree : Option FileTree
  deriving Repr, Inhabited

namespace DescriptorDir

/-- What the names of descriptor files end in, after a dot. -/
def extension : String := "json"

/-- Whether a text is the name of one file or directory below another. -/
def isPart (part : String) : Bool :=
  !part.isEmpty && part != "." && part != ".." &&
    part.toList.all fun c => c != '/' && c.toNat != 0

/-- The name of the file of a pod. -/
def fileName (name : String) : String :=
  name ++ "." ++ extension

/-- The path of a pod's file below the root. -/
def pathOf? (podNamespace name : String) : Option (List String) :=
  if isPart podNamespace && isPart name then some [podNamespace, fileName name] else none

/-- A path below the root as a text. -/
def display (root : String) (path : List String) : String :=
  path.foldl FileTree.joinPath root

/-- The file that a path below the root leads to. -/
def read (d : DescriptorDir) (path : List String) : Except Errno Bytes :=
  match d.tree with
  | some t => t.read path
  | none => .error .noEntry

/-- The file that a path leads to, given as a text.  Nothing is known of what does not lie below
the root. -/
def readPath (d : DescriptorDir) (path : String) : Except Errno Bytes :=
  match (FileTree.namesOf d.root).isPrefixOf? (FileTree.namesOf path) with
  | some below => d.read below
  | none => .error .noEntry

/-- The descriptor of a pod, given the outcome of reading its file. -/
def interpret (root podNamespace name : String) (path : List String) :
    Except Errno Bytes → Except DescriptorError Descriptor
  | .error e =>
    if e = .noEntry then .error (.notFound podNamespace name)
    else .error (.io (display root path) e.message)
  | .ok content => match Descriptor.parse? content with
    | some descriptor => .ok descriptor
    | none => .error (.malformed (display root path) "not a descriptor")

/-- Work that reads files, each by its path. -/
abbrev Filework (α : Type) : Type :=
  Proc String (fun _ => Except Errno Bytes) α

/-- Looks up the descriptor of a pod below a root. -/
def lookUp (root podNamespace name : String) :
    Filework (Except DescriptorError Descriptor) := do
  match pathOf? podNamespace name with
  | none => return .error (.invalidPodName podNamespace name)
  | some path =>
    let outcome ← (.question (display root path) : Filework (Except Errno Bytes))
    return interpret root podNamespace name path outcome

/-- The descriptor of a pod. -/
def get (d : DescriptorDir) (podNamespace name : String) : Except DescriptorError Descriptor :=
  ((lookUp d.root podNamespace name).run (fun path _ => (d.readPath path, ())) ()).1

/-- A file name as what stands before its last dot and what stands after it; nothing if there
is no dot past the first character. -/
def splitExtension? (file : String) : Option (String × String) :=
  let reversed := file.toList.reverse
  let ext := reversed.takeWhile (· != '.')
  match reversed.dropWhile (· != '.') with
  | [] => none
  | _ :: stem =>
    if stem.isEmpty then none
    else some (String.ofList stem.reverse, String.ofList ext.reverse)

/-- The name of the pod whose file has a given name, if it is a file of a pod. -/
def podOf? (file : String) : Option String :=
  match splitExtension? file with
  | some (stem, ext) => if ext == extension then some stem else none
  | none => none

/-- Whether the descriptor in an entry says that the pod lives in the node's namespace.  An
entry that is no descriptor says no. -/
def saysHostNetwork : FileTree → Bool
  | .dir _ => false
  | .file content => match Descriptor.parse? content with
    | some descriptor => descriptor.hostNetwork
    | none => false

/-- The pods of one namespace. -/
def podsIn (podNamespace : String) (entries : List (String × FileTree)) : List PodRef :=
  entries.filterMap fun (file, entry) =>
    (podOf? file).map fun name => ⟨podNamespace, name, saysHostNetwork entry⟩

/-- The order of pods: by namespace, then by name. -/
def before (a b : PodRef) : Bool :=
  decide (Text.Before a.podNamespace b.podNamespace) ||
    (a.podNamespace == b.podNamespace && Text.notAfter a.name b.name)

/-- The pods that have a file, in order.  A directory that is not there has none. -/
def pods (d : DescriptorDir) : Except DescriptorError (List PodRef) :=
  match d.tree with
  | none => .ok []
  | some (.file _) => .error (.io d.root Errno.notDirectory.message)
  | some (.dir entries) =>
    let all := entries.flatMap fun (podNamespace, entry) => podsIn podNamespace entry.entries
    .ok (all.mergeSort before)

end DescriptorDir

end PodAttach
