import PodAttach.Switch.Listing
import PodAttach.Switch.Tool
import PodAttach.Text.Quoted

/-!
# Ports by `ovs-vsctl`

Making, removing and listing ports, and waiting for the OpenFlow number of a
port.  Keys and values of identifiers stand between quotes.
-/

namespace PodAttach.Switch.Vsctl

/-- The name of the tool. -/
def program : String := "ovs-vsctl"

/-- How the tool is used. -/
structure Client where
  bridge : String
  /-- How long a run may take. -/
  limit : Duration
  /-- How long to wait for an OpenFlow number. -/
  ofportWait : Duration
  deriving DecidableEq, Repr, Inhabited

/-- A run of the tool.  It gets the limit too, in whole seconds, and one second more to end. -/
def invocation (c : Client) (args : List String) : Invocation where
  program := program
  args := ("--timeout=" ++ Text.decimal (max c.limit.secs 1)) :: args
  input := none
  limit := c.limit + .ofSecs 1

/-- Runs the tool. -/
def run (c : Client) (args : List String) : Toolwork (Except Error String) :=
  Toolwork.run (invocation c args)

/-! ## Arguments -/

/-- A character between quotes: a backslash stands before quotes and backslashes. -/
def quoteChar (c : Char) : List Char :=
  if c == '\\' || c == '"' then ['\\', c] else [c]

/-- A text between quotes. -/
def quote (s : String) : String :=
  String.ofList ('"' :: s.toList.flatMap quoteChar ++ ['"'])

/-- The arguments that set identifiers, in the order of their keys. -/
def externalIdArgs (externalIds : Table String) : List String :=
  externalIds.entries.map fun (k, v) => "external_ids:" ++ quote k ++ "=" ++ quote v

/-- The arguments that make a port, in the place of one of that name. -/
def createArgs (bridge name : String) (externalIds : Table String) : List String :=
  ["--", "--if-exists", "del-port", name, "--", "add-port", bridge, name, "--",
    "set", "Port", name] ++ externalIdArgs externalIds

/-! ## Outputs -/

/-- The length of a UUID. -/
def uuidLength : Nat := 36

/-- The places of a UUID where a dash stands. -/
def dashPlaces : List Nat := [8, 13, 18, 23]

/-- Whether a text is a UUID. -/
def isUuid (s : String) : Bool :=
  Utf8.size s == uuidLength && s.toList.zipIdx.all fun (c, i) =>
    if dashPlaces.contains i then c == '-' else Text.isHexDigit c

/-- The UUID that a run printed. -/
def readUuid (output : String) : Except Error String :=
  let s := Text.trim output
  if isUuid s then .ok s
  else .error (.invalidOutput ("expected a UUID, got " ++ Text.quoted s))

/-! ## Calls -/

/-- Makes a port; gives its UUID. -/
def createPort (c : Client) (name : String) (externalIds : Table String) :
    Toolwork (Except Error String) := do
  match ← run c (createArgs c.bridge name externalIds) with
  | .error e => return .error e
  | .ok _ => match ← run c ["get", "Port", name, "_uuid"] with
    | .error e => return .error e
    | .ok output => return readUuid output

/-- Removes the port with a UUID. -/
def deletePort (c : Client) (uuid : String) : Toolwork (Except Error Unit) := do
  match ← run c ["remove", "Bridge", c.bridge, "ports", uuid] with
  | .error e => return .error e
  | .ok _ => return .ok ()

/-- The time between two questions for an OpenFlow number. -/
def pollInterval : Duration := .ofMillis 100

/-- How often an OpenFlow number is asked for after the first time, if every sleep takes its
time. -/
def polls (wait : Duration) : Nat :=
  (wait.nanos + pollInterval.nanos - 1) / pollInterval.nanos

/-- Asks once for the OpenFlow number of a port; it may have none yet. -/
def queryOfport (c : Client) (name : String) : Toolwork (Except Error (Option Nat)) := do
  match ← run c ["get", "Interface", name, "ofport"] with
  | .error e => return .error e
  | .ok output => return .ok (readOfport? output)

/-- Asks for the OpenFlow number of a port, and again after a sleep, as long as there is time; the
last argument bounds how often. -/
def pollOfport (c : Client) (name : String) (started : Duration) :
    Nat → Toolwork (Except Error Nat)
  | 0 => return .error (.ofPortUnavailable name)
  | rounds + 1 => do
    match ← queryOfport c name with
    | .error e => return .error e
    | .ok (some ofport) => return .ok ofport
    | .ok none =>
      let now ← Toolwork.clock
      if c.ofportWait.nanos ≤ now.nanos - started.nanos then
        return .error (.ofPortUnavailable name)
      else
        Toolwork.sleep pollInterval
        pollOfport c name started rounds

/-- The OpenFlow number of a port; waits for it, and asks no more than so many times. -/
def getOfportWithin (c : Client) (name : String) (rounds : Nat) :
    Toolwork (Except Error Nat) := do
  let started ← Toolwork.clock
  pollOfport c name started rounds

/-- The OpenFlow number of a port; waits for it. -/
def getOfport (c : Client) (name : String) : Toolwork (Except Error Nat) :=
  getOfportWithin c name (polls c.ofportWait + 1)

/-- The ports of the switch. -/
def listPorts (c : Client) : Toolwork (Except Error (List Port)) := do
  match ← run c ["--format=json", "--columns=_uuid,name,external_ids", "list", "Port"] with
  | .error e => return .error e
  | .ok ports =>
    match ← run c ["--format=json", "--columns=name,ofport", "list", "Interface"] with
    | .error e => return .error e
    | .ok interfaces => return readPorts ports interfaces

end PodAttach.Switch.Vsctl
