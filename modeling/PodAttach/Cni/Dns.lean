import PodAttach.Json.Record

/-!
# Name resolution settings

The settings that a network configuration brings and a result carries.
-/

namespace PodAttach.Cni

/-- Settings for resolving names. -/
structure Dns where
  nameservers : List String := []
  domain : Option String := none
  search : List String := []
  options : List String := []
  deriving DecidableEq, Repr, Inhabited

namespace Dns

/-- Whether nothing is set. -/
def isEmpty (d : Dns) : Bool :=
  d.nameservers.isEmpty && d.domain.isNone && d.search.isEmpty && d.options.isEmpty

open Json in
/-- Reads the settings; whatever is left out is not set. -/
def ofDocument? (d : Document) : Option Dns := do
  let fs ← d.record? ["nameservers", "domain", "search", "options"]
  let texts := Document.list? Document.text?
  let nameservers ← Fields.withDefault? fs "nameservers" [] texts
  let domain ← Fields.withDefault? fs "domain" none (Document.optional? Document.text?)
  let search ← Fields.withDefault? fs "search" [] texts
  let options ← Fields.withDefault? fs "options" [] texts
  return { nameservers, domain, search, options }

/-- The settings as a value; whatever is not set is left out. -/
def toJson (d : Dns) : Json :=
  .ofFields [
    ("nameservers", Json.nonempty? (d.nameservers.map .str)),
    ("domain", d.domain.map .str),
    ("search", Json.nonempty? (d.search.map .str)),
    ("options", Json.nonempty? (d.options.map .str))]

/-- The settings, or nothing if they are empty. -/
def toJson? (d : Dns) : Option Json :=
  if d.isEmpty then none else some d.toJson

end Dns

end PodAttach.Cni
