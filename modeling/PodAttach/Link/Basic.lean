import PodAttach.Address.Route
import PodAttach.Proc

/-!
# Pairs of links

A container is attached by a pair of links: one end stays with the node and
the other is moved into the container's namespace.
-/

namespace PodAttach.Link

open Net

/-- What a pair is to be. -/
structure PairSpec where
  containerId : String
  /-- The name of the end that stays. -/
  hostIfname : String
  /-- The path of the namespace that gets the other end. -/
  netns : String
  /-- The name of the end that is moved. -/
  containerIfname : String
  /-- Zero for whatever the kernel chooses. -/
  mtu : Nat
  mac : String
  addresses : List Cidr
  routes : List Route
  deriving DecidableEq, Repr, Inhabited

/-- One end of a pair. -/
structure End where
  name : String
  mac : String
  /-- The path of its namespace; empty for the node's own. -/
  sandbox : String
  deriving DecidableEq, Repr, Inhabited

/-- A pair that was built. -/
structure Pair where
  host : End
  container : End
  deriving DecidableEq, Repr, Inhabited

/-- What went wrong with a link. -/
inductive Error where
  /-- A namespace could not be entered. -/
  | namespaceAccess (path reason : String)
  /-- A link is not there. -/
  | linkNotFound (name : String)
  /-- A pair could not be made. -/
  | linkCreate (name reason : String)
  /-- A link could not be changed or looked at. -/
  | linkConfigure (name reason : String)
  /-- A link could not be removed. -/
  | linkDelete (name reason : String)
  /-- A text is no hardware address. -/
  | invalidMac (text : String)
  /-- Addresses or routes could not be had. -/
  | route (e : RouteError)
  /-- Something is not as it was recorded. -/
  | check (what : String)
  deriving DecidableEq, Repr, Inhabited

/-- The kind of an error. -/
def Error.kind : Error → String
  | .namespaceAccess .. => "NamespaceAccess"
  | .linkNotFound _ => "LinkNotFound"
  | .linkCreate .. => "LinkCreate"
  | .linkConfigure .. => "LinkConfigure"
  | .linkDelete .. => "LinkDelete"
  | .invalidMac _ => "InvalidMac"
  | .route _ => "Route"
  | .check _ => "Check"

/-- The wording of an error. -/
def Error.message : Error → String
  | .namespaceAccess path reason =>
    "Failed to access network namespace " ++ path ++ ": " ++ reason
  | .linkNotFound name => "Link " ++ name ++ " not found"
  | .linkCreate name reason => "Failed to create link " ++ name ++ ": " ++ reason
  | .linkConfigure name reason => "Failed to configure link " ++ name ++ ": " ++ reason
  | .linkDelete name reason => "Failed to delete link " ++ name ++ ": " ++ reason
  | .invalidMac text => "Invalid MAC address: " ++ text
  | .route e => "Route programming failed: " ++ e.message
  | .check what => "Interface check failed: " ++ what

/-- A call on the links of the node. -/
inductive Call where
  /-- Builds a pair; on failure nothing of it stays. -/
  | build (spec : PairSpec)
  /-- Removes a pair; one that is not there is no failure. -/
  | teardown (containerId hostIfname : String)
  /-- Looks whether both ends are there, the moved one with its hardware address. -/
  | check (hostIfname netns containerIfname mac : String)
  deriving DecidableEq, Repr, Inhabited

/-- What a call gives when it succeeds. -/
@[reducible]
def Call.Value : Call → Type
  | .build _ => Pair
  | .teardown .. => Unit
  | .check .. => Unit

/-- The answer to a call. -/
abbrev Call.Reply (c : Call) : Type :=
  Except Error c.Value

end PodAttach.Link
