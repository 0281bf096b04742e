import PodAttach.Address.Route
import PodAttach.Net.LinkName
import PodAttach.Net.Mac
import PodAttach.System.Errno

/-!
# Links as the kernel keeps them

Links live in network namespaces, each under a name of its own there.  Links
are made in pairs, and an end may be moved to another namespace.  A machine
knows every link by a number that is never used again.
-/

namespace PodAttach.Kernel

open Net

/-- The name of a namespace. -/
abbrev Space : Type := String

/-- A link. -/
structure Link where
  index : Nat
  space : Space
  name : String
  mac : Bytes
  mtu : Nat
  up : Bool := false
  addresses : List Cidr := []
  routes : List Route := []
  /-- The other end of the pair. -/
  peer : Option Nat
  deriving DecidableEq, Repr, Inhabited

/-- All links of all namespaces. -/
structure Machine where
  links : List Link := []
  nextIndex : Nat := 1
  deriving DecidableEq, Repr, Inhabited

/-! ## Names and sizes -/

/-- Whether a name is too long for a link. -/
def isTooLong (name : String) : Bool :=
  LinkName.maxSize < Utf8.size name

/-- The characters that no link name has. -/
def isForbidden (c : Char) : Bool :=
  c == '/' || c == ':' || c == ' ' || (9 ≤ c.toNat && c.toNat ≤ 13)

/-- Whether a name that is not too long may be that of a link. -/
def isWellFormed (name : String) : Bool :=
  !name.isEmpty && !name.toList.any isForbidden

/-- The name of the link that every namespace has for itself. -/
def loopbackName : String := "lo"

/-- The size of packets when none is asked for. -/
def defaultMtu : Nat := 1500

/-- Whether a link can have a size of packets. -/
def isMtu (mtu : Nat) : Bool :=
  68 ≤ mtu && mtu ≤ 65535

/-- Whether a link can have a hardware address: it is not all zero and not one of a group. -/
def isLinkMac (mac : Bytes) : Bool :=
  match mac with
  | [] => false
  | b :: _ => b.toNat % 2 == 0 && !mac.all fun b => b == 0

/-- The hardware address that a new link gets. -/
def freshMac (index : Nat) : Bytes :=
  [0xF6, 0x5A, 0xC3, UInt8.ofNat (index / 65536), UInt8.ofNat (index / 256), UInt8.ofNat index]

namespace Machine

/-! ## Looking -/

/-- The link of a name. -/
def named? (m : Machine) (space : Space) (name : String) : Option Link :=
  m.links.find? fun l => l.space == space && l.name == name

/-- The link of a number. -/
def link? (m : Machine) (space : Space) (index : Nat) : Option Link :=
  m.links.find? fun l => l.space == space && l.index == index

/-- The links of a namespace. -/
def inSpace (m : Machine) (space : Space) : List Link :=
  m.links.filter fun l => l.space == space

/-- Why a link may not have a name. -/
def nameError? (m : Machine) (space : Space) (name : String) : Option Errno :=
  if isTooLong name then some .outOfRange
  else if !isWellFormed name then some .invalidArgument
  else if (m.named? space name).isSome then some .alreadyExists
  else none

/-! ## Changing -/

/-- Changes the link of a number. -/
def modify (m : Machine) (index : Nat) (f : Link → Link) : Machine :=
  { m with links := m.links.map fun l => if l.index = index then f l else l }

/-- Adds a link. -/
def addLink (m : Machine) (l : Link) : Machine :=
  { links := m.links ++ [l], nextIndex := max m.nextIndex (l.index + 1) }

/-- Adds the link that every namespace has for itself. -/
def addLoopback (m : Machine) (space : Space) : Machine :=
  m.addLink {
    index := m.nextIndex, space, name := loopbackName, mac := List.replicate 6 0, mtu := 65536,
    peer := none }

/-- Namespaces in which nothing has been made yet. -/
def ofSpaces (spaces : List Space) : Machine :=
  spaces.foldl addLoopback {}

/-- Removes a link, and with it the other end of the pair. -/
def removeLink (m : Machine) (l : Link) : Machine :=
  { m with links := m.links.filter fun k => k.index != l.index && some k.index != l.peer }

end Machine

end PodAttach.Kernel
