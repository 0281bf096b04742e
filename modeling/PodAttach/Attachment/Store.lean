import PodAttach.Attachment.Basic

/-!
# The store of attachments

All attachments that the agent knows of, by the name of the interface.  A
second index leads from a container to the name of its interface: a
container has one interface, and an interface belongs to one container.
-/

namespace PodAttach

/-- The attachments that the agent knows of. -/
structure Store where
  byName : Table Attachment
  /-- The interface of each container. -/
  byContainer : Table String
  deriving DecidableEq, Repr

namespace Store

/-- The store that holds nothing. -/
def empty : Store := ⟨.empty, .empty⟩

instance : Inhabited Store := ⟨empty⟩

/-- Takes the container out of the index whose attachment gives way to one of another. -/
def forgetReplaced (s : Store) (a : Attachment) : Table String :=
  match s.byName.get? a.interfaceName with
  | some replaced =>
    if replaced.containerId = a.containerId then s.byContainer
    else s.byContainer.erase replaced.containerId
  | none => s.byContainer

/-- Records an attachment, in the place of those of the same interface or container. -/
def add (s : Store) (a : Attachment) : Store :=
  let byContainer := s.forgetReplaced a
  let byName := match byContainer.get? a.containerId with
    | some previous =>
      if previous = a.interfaceName then s.byName else s.byName.erase previous
    | none => s.byName
  ⟨byName.insert a.interfaceName a, byContainer.insert a.containerId a.interfaceName⟩

/-- The attachment of an interface. -/
def get? (s : Store) (name : String) : Option Attachment :=
  s.byName.get? name

/-- Forgets the attachment of an interface. -/
def erase (s : Store) (name : String) : Store :=
  match s.byName.get? name with
  | none => s
  | some a =>
    ⟨s.byName.erase name,
      if s.byContainer.get? a.containerId = some name then s.byContainer.erase a.containerId
      else s.byContainer⟩

/-- Takes the attachment of an interface out of the store, and gives it. -/
def take (s : Store) (name : String) : Option Attachment × Store :=
  (s.get? name, s.erase name)

/-- The attachment of a container. -/
def find? (s : Store) (containerId : String) : Option Attachment :=
  match s.byContainer.get? containerId with
  | none => none
  | some name => (s.byName.get? name).filter fun a => a.containerId == containerId

/-- All attachments, in the order of their names. -/
def list (s : Store) : List Attachment :=
  s.byName.values

/-- The number of attachments. -/
def size (s : Store) : Nat :=
  s.byName.size

/-- The attachments that the ports of the switch speak of. -/
def ofPorts (ports : List Switch.Port) : Store :=
  (ports.filterMap Attachment.ofPort?).foldl add empty

end Store

end PodAttach
