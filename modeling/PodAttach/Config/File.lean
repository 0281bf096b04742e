import PodAttach.Config.Layer
import PodAttach.Toml.Document

/-!
# Configuration files

A file is a TOML document with up to three tables, whose values are texts.
Nothing else may stand in it.  A table may also be written as an array of its
values in order; then none of them may be missing, and what follows them does
not count.
-/

namespace PodAttach.Config

/-- The tables of a file, and their keys in order. -/
def fileSections : List (String × List (String × Field)) := [
  ("server", [
    ("socket", .cniSocket),
    ("host_proc_path_prefix", .procRoot),
    ("descriptor_dir", .descriptorDir),
    ("network_ready_timeout", .networkReadyTimeout),
    ("lock_timeout", .lockTimeout)]),
  ("switch", [
    ("bridge", .ovsBridge),
    ("ofport_wait", .ofportWait),
    ("command_timeout", .ovsCommandTimeout)]),
  ("logging", [
    ("level", .logLevel),
    ("format", .logFormat)])]

/-- What a file gives, field by field. -/
abbrev FileValues : Type :=
  List (Field × String)

namespace FileValues

/-- The text that a value is. -/
def text? : Toml.Value → Option String
  | .str text => some text
  | _ => none

/-- The values of a table with keys. -/
def ofEntries? (keys : List (String × Field)) (entries : Toml.Entries) : Option FileValues :=
  entries.mapM fun (key, v) => do
    let field ← keys.lookup key
    let text ← text? v
    some (field, text)

/-- The values of a table that is written as an array. -/
def ofItems? : List (String × Field) → List Toml.Value → Option FileValues
  | [], _ => some []
  | _ :: _, [] => none
  | (_, field) :: keys, v :: items => do
    let text ← text? v
    let rest ← ofItems? keys items
    some ((field, text) :: rest)

/-- The values of one of the tables. -/
def ofSection? (keys : List (String × Field)) : Toml.Value → Option FileValues
  | .table _ entries => ofEntries? keys entries
  | .arr _ items => ofItems? keys items
  | _ => none

/-- The values of a document. -/
def ofDocument? (document : Toml.Entries) : Option FileValues := do
  let sections ← document.mapM fun (name, v) => do
    ofSection? (← fileSections.lookup name) v
  some sections.flatten

/-- The values that a text gives. -/
def parse? (text : String) : Option FileValues := do
  ofDocument? (← Toml.parse? text)

/-- The values as a layer. -/
def layer (values : FileValues) : Layer :=
  fun field => values.lookup field

end FileValues

/-! ## Writing -/

/-- A line that gives a setting. -/
def settingLine (key value : String) : String :=
  key ++ " = \"" ++ value ++ "\""

/-- The text of a limit. -/
def limitText : Option Duration → String
  | some d => d.render
  | none => "none"

/-- The file that gives some settings, with explanations. -/
def Settings.toFile (s : Settings) : String :=
  String.intercalate "\n" [
    "# OVS CNI Agent Configuration",
    "# This is the default configuration with all available options",
    "",
    "[server]",
    "# Unix socket the CNI plugin connects to",
    settingLine "socket" s.cniSocket,
    "# Prefix for namespace paths when the agent runs in a container",
    settingLine "host_proc_path_prefix" s.procRoot,
    "# Directory of per-pod interface descriptors (<namespace>/<name>.json)",
    settingLine "descriptor_dir" s.descriptorDir,
    "# How long Add waits for the node network before asking the runtime to retry",
    settingLine "network_ready_timeout" s.networkReadyTimeout.render,
    "# How long a request waits for a busy container; \"none\" waits forever",
    settingLine "lock_timeout" (limitText s.lockTimeout),
    "",
    "[switch]",
    "# Bridge that container ports are added to",
    settingLine "bridge" s.ovsBridge,
    "# How long to wait for a new port's OpenFlow number",
    settingLine "ofport_wait" s.ofportWait.render,
    "# Timeout for each ovs-vsctl and ovs-ofctl invocation",
    settingLine "command_timeout" s.ovsCommandTimeout.render,
    "",
    "[logging]",
    "# Log level: trace, debug, info, warn, error",
    settingLine "level" s.logLevel,
    "# Log format: text or json",
    settingLine "format" s.logFormat.name,
    ""]

/-- The file that gives the defaults. -/
def defaultFile : String :=
  Settings.toFile {}

end PodAttach.Config
