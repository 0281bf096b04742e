import PodAttach.Kernel.Basic

/-!
# Requests to the kernel

A request is made from one namespace.  It changes the links there, or fails
and changes nothing.
-/

namespace PodAttach.Kernel

open Net

/-- What was found where a namespace was looked for. -/
inductive NsFile where
  /-- The namespace. -/
  | space (name : Space)
  /-- Something else. -/
  | other
  deriving DecidableEq, Repr, Inhabited

/-- What is to become of a link; all of it, or nothing. -/
structure Change where
  /-- Where it is to live. -/
  netns : Option NsFile := none
  mac : Option Bytes := none
  mtu : Option Nat := none
  /-- Its name; an empty one changes nothing. -/
  name : Option String := none
  up : Bool := false
  deriving DecidableEq, Repr, Inhabited

/-- A request. -/
inductive Request where
  /-- Makes a pair. -/
  | newLink (name peerName : String) (mtu : Option Nat)
  /-- Looks a link up. -/
  | getLink (name : String)
  /-- Changes a link. -/
  | setLink (index : Nat) (change : Change)
  /-- Removes a pair. -/
  | delLink (index : Nat)
  /-- Gives a link an address. -/
  | newAddress (index : Nat) (address : Cidr)
  /-- Adds a route through a link. -/
  | newRoute (index : Nat) (route : Route)
  deriving DecidableEq, Repr, Inhabited

/-- What is learnt about a link. -/
structure LinkInfo where
  index : Nat
  mac : Bytes
  deriving DecidableEq, Repr, Inhabited

/-- What a request gives when it succeeds. -/
def Request.Value : Request → Type
  | .getLink _ => LinkInfo
  | _ => Unit

/-- The answer to a request. -/
abbrev Request.Reply (r : Request) : Type :=
  Except Errno r.Value

namespace Machine

/-- Makes a pair. -/
def newLink (m : Machine) (space : Space) (name peerName : String) (mtu : Option Nat) :
    Except Errno Machine :=
  let size := mtu.getD defaultMtu
  let index := m.nextIndex
  match m.nameError? space name with
  | some e => .error e
  | none =>
    let host : Link :=
      { index, space, name, mac := freshMac index, mtu := size, peer := some (index + 1) }
    if !isMtu size then .error .invalidArgument
    else match (m.addLink host).nameError? space peerName with
      | some e => .error e
      | none => .ok ((m.addLink host).addLink {
          index := index + 1, space, name := peerName, mac := freshMac (index + 1), mtu := size,
          peer := some index })

/-- Looks a link up. -/
def getLink (m : Machine) (space : Space) (name : String) : Except Errno LinkInfo :=
  if isTooLong name then .error .outOfRange
  else match m.named? space name with
    | some l => .ok ⟨l.index, l.mac⟩
    | none => .error .noDevice

/-- Moves a link; it comes without its addresses and routes. -/
def move (m : Machine) (l : Link) : Option NsFile → Except Errno (Machine × Link)
  | none => .ok (m, l)
  | some .other => .error .invalidArgument
  | some (.space space) =>
    if space = l.space then .ok (m, l)
    else if (m.named? space l.name).isSome then .error .alreadyExists
    else
      let l := { l with space, up := false, addresses := [], routes := [] }
      .ok (m.modify l.index fun _ => l, l)

/-- Why a link cannot be changed, once it is where it is to live. -/
def changeError? (m : Machine) (l : Link) (c : Change) : Option Errno :=
  let name := c.name.getD ""
  if c.mac.any fun mac => !isLinkMac mac then some .addressNotAvailable
  else if c.mtu.any fun mtu => !isMtu mtu then some .invalidArgument
  else if name.isEmpty || name = l.name then none
  else m.nameError? l.space name

/-- A link with its changes. -/
def changed (l : Link) (c : Change) : Link :=
  let name := c.name.getD ""
  { l with
    mac := c.mac.getD l.mac
    mtu := c.mtu.getD l.mtu
    name := if name.isEmpty then l.name else name
    up := l.up || c.up }

/-- Changes a link. -/
def setLink (m : Machine) (space : Space) (index : Nat) (c : Change) : Except Errno Machine :=
  if isTooLong (c.name.getD "") then .error .outOfRange
  else match m.link? space index with
    | none => .error .noDevice
    | some l => match m.move l c.netns with
      | .error e => .error e
      | .ok (m, l) => match m.changeError? l c with
        | some e => .error e
        | none => .ok (m.modify index fun _ => changed l c)

/-- Removes a pair. -/
def delLink (m : Machine) (space : Space) (index : Nat) : Except Errno Machine :=
  match m.link? space index with
  | none => .error .noDevice
  | some l => match l.peer with
    | none => .error .notSupported
    | some _ => .ok (m.removeLink l)

/-- Whether an address stands in the way of another one of the same link. -/
def isSameAddress (a b : Cidr) : Bool :=
  a.ip == b.ip && (a.family == .v6 || a.len == b.len)

/-- Gives a link an address. -/
def newAddress (m : Machine) (space : Space) (index : Nat) (address : Cidr) :
    Except Errno Machine :=
  match m.link? space index with
  | none => .error .noDevice
  | some l =>
    if l.addresses.any (isSameAddress address) then .error .alreadyExists
    else .ok (m.modify index fun l => { l with addresses := l.addresses ++ [address] })

/-- The error for a gateway that is not near. -/
def unreachable : Family → Errno
  | .v4 => .networkUnreachable
  | .v6 => .noRoute

/-- The blocks that a link leads to already. -/
def destinations (l : Link) (family : Family) : List Cidr :=
  l.routes.map (·.destination) ++
    match family with
    | .v4 => l.addresses.map Cidr.network
    | .v6 => []

/-- Adds a route through a link. -/
def newRoute (m : Machine) (space : Space) (index : Nat) (route : Route) :
    Except Errno Machine :=
  let destination := route.destination.network
  let near := (m.link? space index).any fun l => l.addresses.any fun a => a.contains route.gateway
  if !near then .error (unreachable route.gateway.family)
  else if (m.inSpace space).any fun l =>
      (destinations l destination.family).contains destination then
    .error .alreadyExists
  else .ok (m.modify index fun l =>
    { l with routes := l.routes ++ [⟨destination, route.gateway⟩] })

/-- What becomes of the machine, and what is answered. -/
def settle (m : Machine) : Except Errno Machine → Except Errno Unit × Machine
  | .ok m => (.ok (), m)
  | .error e => (.error e, m)

/-- Serves a request from a namespace. -/
def serve (m : Machine) (space : Space) : (r : Request) → r.Reply × Machine
  | .newLink name peerName mtu => m.settle (m.newLink space name peerName mtu)
  | .getLink name => (m.getLink space name, m)
  | .setLink index change => m.settle (m.setLink space index change)
  | .delLink index => m.settle (m.delLink space index)
  | .newAddress index address => m.settle (m.newAddress space index address)
  | .newRoute index route => m.settle (m.newRoute space index route)

end Machine

end PodAttach.Kernel
