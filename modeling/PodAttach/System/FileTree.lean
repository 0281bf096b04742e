import PodAttach.System.Errno
import PodAttach.Text.Split
import PodAttach.Text.Utf8

/-!
# Files and directories

A tree of directories with plain files.  A path is a list of names, and
`find` follows it from the top: every name but the last has to be one of a
directory.  `read` gives the bytes of a file and `list` the names in a
directory.
-/

namespace PodAttach

/-- A file, or a directory with named entries. -/
inductive FileTree where
  | file (content : Bytes)
  | dir (entries : List (String × FileTree))
  deriving Repr, Inhabited

namespace FileTree

/-- The most bytes of a file name. -/
def maxNameSize : Nat := 255

/-- Whether it is a directory. -/
def isDir : FileTree → Bool
  | .dir _ => true
  | .file _ => false

/-- The entry of a directory that a name stands for. -/
def step (t : FileTree) (name : String) : Except Errno FileTree :=
  match t with
  | .file _ => .error .notDirectory
  | .dir entries =>
    if maxNameSize < Utf8.size name then .error .nameTooLong
    else match entries.lookup name with
      | some entry => .ok entry
      | none => .error .noEntry

/-- What a path leads to. -/
def find (t : FileTree) (path : List String) : Except Errno FileTree :=
  path.foldlM step t

/-- The bytes of the file that a path leads to. -/
def read (t : FileTree) (path : List String) : Except Errno Bytes :=
  match t.find path with
  | .error e => .error e
  | .ok (.file content) => .ok content
  | .ok (.dir _) => .error .isDirectory

/-- The entries of the directory that a path leads to. -/
def list (t : FileTree) (path : List String) : Except Errno (List (String × FileTree)) :=
  match t.find path with
  | .error e => .error e
  | .ok (.dir entries) => .ok entries
  | .ok (.file _) => .error .notDirectory

/-! ## Paths as texts -/

/-- The names in a path. -/
def namesOf (path : String) : List String :=
  (Text.split '/' path).filter fun name => !name.isEmpty && name != "."

/-- A path that goes on with another one.  One that starts at the top takes the place of the
first. -/
def joinPath (base path : String) : String :=
  if path.toList.head? == some '/' then path
  else if base.isEmpty then path
  else if base.toList.getLast? == some '/' then base ++ path
  else base ++ "/" ++ path

/-! ## Following -/

/-- The names that lead to where a path leads, followed from where `trail` ends; the trail is
reversed. -/
def follow (t : FileTree) : (trail names : List String) → Except Errno (List String)
  | trail, [] => .ok trail.reverse
  | trail, name :: rest =>
    if name = ".." then
      match t.list trail.reverse with
      | .ok _ => t.follow trail.tail rest
      | .error e => .error e
    else match t.find (name :: trail).reverse with
      | .ok _ => t.follow (name :: trail) rest
      | .error e => .error e

/-- The bytes of the file at an absolute path, given as a text. -/
def readPath (t : FileTree) (path : String) : Except Errno Bytes :=
  match path.toList.head?, path.toList.getLast? with
  | some '/', some '/' => .error .isDirectory
  | some '/', _ =>
    match t.follow [] (namesOf path) with
    | .ok names => t.read names
    | .error e => .error e
  | _, _ => .error .noEntry

/-! ## Changes -/

/-- The entries of a directory; a file has none. -/
def entries : FileTree → List (String × FileTree)
  | .dir es => es
  | .file _ => []

/-- Puts an entry in the place of the one of its name, or after all others. -/
def setEntry (name : String) (entry : FileTree) :
    List (String × FileTree) → List (String × FileTree)
  | [] => [(name, entry)]
  | e :: rest => if e.1 = name then (name, entry) :: rest else e :: setEntry name entry rest

/-- Puts something where a path leads; directories on the way are made. -/
def put (leaf : FileTree) : List String → FileTree → FileTree
  | [], _ => leaf
  | name :: path, t =>
    let below := (t.entries.lookup name).getD (.dir [])
    .dir (setEntry name (put leaf path below) t.entries)

/-- Takes away what a path leads to. -/
def remove : List String → FileTree → FileTree
  | [], t => t
  | [name], t => .dir (t.entries.filter fun e => e.1 != name)
  | name :: path, t =>
    match t.entries.lookup name with
    | some below => .dir (setEntry name (remove path below) t.entries)
    | none => t

/-- Takes away the file that a path leads to; one that is not there is none. -/
def unlink (t : FileTree) (path : List String) : Except Errno FileTree :=
  match t.find path with
  | .ok (.file _) => .ok (remove path t)
  | .ok (.dir _) => .error .isDirectory
  | .error e => if e = .noEntry then .ok t else .error e

/-- Makes a directory and those above it, as far as they are not there. -/
def makeDir (t : FileTree) (path : List String) : Except Errno FileTree :=
  match t.find path with
  | .ok (.dir _) => .ok t
  | .ok (.file _) => .error .alreadyExists
  | .error e => if e = .noEntry then .ok (put (.dir []) path t) else .error e

end FileTree

end PodAttach
