/-!
# What is wrong with a configuration
-/

namespace PodAttach.Config

/-- What is wrong with a configuration. -/
inductive Error where
  /-- The file cannot be read. -/
  | fileNotFound (path : String)
  /-- A text does not spell what it should. -/
  | invalidFormat (what : String)
  /-- The file is no document of the form that it should have. -/
  | malformedFile
  /-- A setting is blank. -/
  | missingRequired (field : String)
  /-- A setting cannot work. -/
  | invalid (what : String)
  deriving DecidableEq, Repr, Inhabited

/-- The kind of an error. -/
def Error.kind : Error → String
  | .fileNotFound _ => "FileNotFound"
  | .invalidFormat _ | .malformedFile => "InvalidFormat"
  | .missingRequired _ => "MissingRequired"
  | .invalid _ => "ValidationError"

/-- The wording of an error. -/
def Error.message : Error → String
  | .fileNotFound path => "Configuration file not found: " ++ path
  | .invalidFormat what => "Invalid configuration format: " ++ what
  | .malformedFile => "Invalid configuration format: TOML parse error"
  | .missingRequired field => "Missing required configuration: " ++ field
  | .invalid what => "Configuration validation error: " ++ what

end PodAttach.Config
