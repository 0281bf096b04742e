import PodAttach.Config.Layer

/-!
# The command line of the agent

Options with a value are given as `--name value`, `--name=value`, `-n value`,
`-nvalue` or `-n=value`; flags have no value.  An option may be given once.
A value does not start with a dash unless it is attached.
-/

namespace PodAttach.Config

/-- Options with a value. -/
inductive Setter where
  /-- The configuration file. -/
  | file
  /-- A setting. -/
  | field (f : Field)
  deriving DecidableEq, Repr, Inhabited

/-- Options without a value. -/
inductive Flag where
  | validate
  | printDefault
  deriving DecidableEq, Repr, Inhabited

/-- What an option is. -/
inductive Switch where
  | setter (s : Setter)
  | flag (f : Flag)
  | help
  | version
  deriving DecidableEq, Repr, Inhabited

/-- Why a command line does not lead to settings. -/
inductive Rejection where
  /-- An option is not known, or something is no option. -/
  | unknownArgument
  /-- An option stands without its value. -/
  | missingValue
  /-- An option is given twice. -/
  | repeated
  /-- A flag is given a value. -/
  | excessValue
  /-- Help is wanted. -/
  | help
  /-- The version is wanted. -/
  | version
  deriving DecidableEq, Repr, Inhabited

/-- An option as it is described to users. -/
structure OptionSpec where
  letter : Option Char
  long : String
  switch : Switch
  help : String
  deriving DecidableEq, Repr, Inhabited

/-- All options, in the order in which they are described. -/
def optionSpecs : List OptionSpec := [
  ⟨some 'c', "config", .setter .file, "Path to TOML configuration file"⟩,
  ⟨some 'l', "log-level", .setter (.field .logLevel), "Set the logging level"⟩,
  ⟨none, "log-format", .setter (.field .logFormat), "Log output format: text or json"⟩,
  ⟨none, "cni-socket", .setter (.field .cniSocket),
    "Path of the Unix socket serving CNI requests"⟩,
  ⟨none, "ovs-bridge", .setter (.field .ovsBridge),
    "Open vSwitch bridge that container ports are added to"⟩,
  ⟨none, "host-proc-path-prefix", .setter (.field .procRoot),
    "Prefix for network namespace paths when running inside a container"⟩,
  ⟨none, "descriptor-dir", .setter (.field .descriptorDir),
    "Directory holding per-pod interface descriptors"⟩,
  ⟨none, "network-ready-timeout", .setter (.field .networkReadyTimeout),
    "How long Add waits for the node network (e.g. 30s)"⟩,
  ⟨none, "lock-timeout", .setter (.field .lockTimeout),
    "How long a request waits for a busy container, 'none' to wait forever"⟩,
  ⟨none, "ofport-wait", .setter (.field .ofportWait),
    "How long to wait for a new port's OpenFlow number (e.g. 1s)"⟩,
  ⟨none, "ovs-command-timeout", .setter (.field .ovsCommandTimeout),
    "Timeout for each ovs-vsctl and ovs-ofctl invocation"⟩,
  ⟨none, "validate-config", .flag .validate,
    "Validate configuration and exit without starting the service"⟩,
  ⟨none, "print-default-config", .flag .printDefault,
    "Print default configuration in TOML format and exit"⟩,
  ⟨some 'h', "help", .help, "Print help"⟩,
  ⟨some 'V', "version", .version, "Print version"⟩]

/-- The option of a long name. -/
def Switch.ofLong? (name : String) : Option Switch :=
  (optionSpecs.find? fun o => o.long == name).map (·.switch)

/-- The option of a letter. -/
def Switch.ofShort? (letter : Char) : Option Switch :=
  (optionSpecs.find? fun o => o.letter == some letter).map (·.switch)

/-- What a command line gives. -/
structure CommandLine where
  values : List (Setter × String) := []
  flags : List Flag := []
  deriving DecidableEq, Repr, Inhabited

namespace CommandLine

/-- The value given to an option. -/
def value? (c : CommandLine) (s : Setter) : Option String :=
  c.values.lookup s

/-- The configuration file. -/
def file? (c : CommandLine) : Option String :=
  c.value? .file

/-- Whether a flag is given. -/
def has (c : CommandLine) (f : Flag) : Bool :=
  c.flags.contains f

/-- The settings that it gives. -/
def layer (c : CommandLine) : Layer :=
  fun field => c.value? (.field field)

/-! ## Reading -/

/-- How far a command line was read. -/
structure Reader where
  line : CommandLine := {}
  /-- The last option with a value that was not attached, and the value if it came already. -/
  pending : Option (Setter × Option String) := none
  /-- Whether two dashes ended the options. -/
  ended : Bool := false
  deriving DecidableEq, Repr, Inhabited

namespace Reader

/-- Gives an option its value. -/
def give (r : Reader) (s : Setter) (value : String) : Except Rejection Reader :=
  if (r.line.value? s).isSome then .error .repeated
  else .ok { r with line := { r.line with values := (s, value) :: r.line.values } }

/-- Settles the pending option, where another one starts or nothing follows. -/
def settle (r : Reader) : Except Rejection Reader :=
  match r.pending with
  | none => .ok r
  | some (_, none) => .error .missingValue
  | some (s, some value) => { r with pending := none }.give s value

/-- An option, with the value attached to it if there is one. -/
def option (r : Reader) (s : Switch) (attached : Option String) : Except Rejection Reader :=
  match s, attached with
  | .setter s, some value => do (← r.settle).give s value
  | .setter s, none => do return { ← r.settle with pending := some (s, none) }
  | _, some _ => .error .excessValue
  | .flag f, none => do
    let r ← r.settle
    if r.line.has f then throw .repeated
    return { r with line := { r.line with flags := f :: r.line.flags } }
  | .help, none => do
    let _ ← r.settle
    throw .help
  | .version, none => do
    let _ ← r.settle
    throw .version

/-- A long option without its two dashes. -/
def long (r : Reader) (cs : List Char) : Except Rejection Reader :=
  let name := String.ofList (cs.takeWhile (· != '='))
  let attached := match cs.dropWhile (· != '=') with
    | [] => none
    | _ :: value => some (String.ofList value)
  match Switch.ofLong? name with
  | some s => r.option s attached
  | none => .error .unknownArgument

/-- The value attached to a letter. -/
def attachedTo : List Char → Option String
  | [] => none
  | '=' :: value => some (String.ofList value)
  | value => some (String.ofList value)

/-- Letters after one dash. -/
def short (r : Reader) : List Char → Except Rejection Reader
  | [] => .ok r
  | c :: rest =>
    match Switch.ofShort? c with
    | none => .error .unknownArgument
    | some (.setter s) => r.option (.setter s) (attachedTo rest)
    | some s => do short (← r.option s none) rest

/-- An argument that is no option. -/
def plain (r : Reader) (arg : String) : Except Rejection Reader :=
  match r.ended, r.pending with
  | false, some (s, none) => .ok { r with pending := some (s, some arg) }
  | _, _ => .error .unknownArgument

/-- One argument. -/
def feed (r : Reader) (arg : String) : Except Rejection Reader :=
  if r.ended then r.plain arg
  else match arg.toList with
    | ['-', '-'] => .ok { r with ended := true }
    | '-' :: '-' :: name => r.long name
    | '-' :: c :: letters => r.short (c :: letters)
    | _ => r.plain arg

end Reader

/-- What the arguments give. -/
def parse (args : List String) : Except Rejection CommandLine := do
  return (← (← args.foldlM Reader.feed {}).settle).line

end CommandLine

/-! ## Describing -/

/-- The name of the program. -/
def programName : String := "ovs-cni-agent"

/-- The version of the program. -/
def programVersion : String := "0.1.0"

/-- The line that tells the version. -/
def versionLine : String :=
  programName ++ " " ++ programVersion ++ "\n"

/-- What the value of an option is called. -/
def OptionSpec.valueName (o : OptionSpec) : String :=
  String.ofList (o.long.toList.map fun c => if c == '-' then '_' else c.toUpper)

/-- The names of an option, with its value. -/
def OptionSpec.names (o : OptionSpec) : String :=
  let letter := match o.letter with
    | some c => "-" ++ String.singleton c ++ ", "
    | none => "    "
  let value := match o.switch with
    | .setter _ => " <" ++ o.valueName ++ ">"
    | _ => ""
  letter ++ "--" ++ o.long ++ value

/-- An option and what it is for, on two lines. -/
def OptionSpec.describe (o : OptionSpec) : String :=
  "  " ++ o.names ++ "\n          " ++ o.help ++ "\n"

/-- The description of the program. -/
def helpText : String :=
  "Node agent attaching container interfaces to an Open vSwitch bridge\n\nUsage: " ++
    programName ++ " [OPTIONS]\n\nOptions:\n" ++
    String.join (optionSpecs.map OptionSpec.describe)

end PodAttach.Config
