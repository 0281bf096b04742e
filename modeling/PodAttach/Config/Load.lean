import PodAttach.Config.CommandLine
import PodAttach.Config.File
import PodAttach.Text.Utf8

/-!
# Loading the configuration

The defaults come lowest, then the file that the command line names, then the
environment, then the command line.  Every layer is read as a whole, so a bad
text is reported even where a higher layer gives the same setting.
-/

namespace PodAttach.Config

/-- What settings are loaded from. -/
structure Sources where
  /-- The bytes of a file, if it can be read. -/
  file : String → Option Bytes
  /-- The value of a variable, if it is set. -/
  environment : String → Option String

/-- The layer of the file at a path. -/
def Sources.fileLayer (s : Sources) (path : String) : Except Error Layer :=
  match (s.file path).bind Utf8.decode? with
  | none => .error (.fileNotFound path)
  | some text => match FileValues.parse? text with
    | some values => .ok values.layer
    | none => .error .malformedFile

/-- The layer of the file that the command line names, if it names one. -/
def Sources.lowestLayer (s : Sources) (c : CommandLine) : Except Error Layer :=
  match c.file? with
  | some path => s.fileLayer path
  | none => .ok .empty

/-- The settings of all layers. -/
def load (s : Sources) (c : CommandLine) : Except Error Settings := do
  let settings ← (← s.lowestLayer c).apply usualOrder {}
  let settings ← (Layer.ofEnvironment s.environment).apply usualOrder settings
  let settings ← c.layer.apply commandLineOrder settings
  settings.validate

end PodAttach.Config
