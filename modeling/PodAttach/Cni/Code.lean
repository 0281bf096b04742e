/-!
# Error codes of the container network interface

The runtime knows errors by number.  `ofNumber?_number` says that a code is
known again by its number.
-/

namespace PodAttach.Cni

/-- What went wrong with a request, as far as the runtime tells cases apart. -/
inductive Code where
  | unknown
  | incompatibleCniVersion
  | unsupportedField
  | unknownContainer
  | invalidEnvironmentVariables
  | ioFailure
  | decodingFailure
  | invalidNetworkConfig
  | tryAgainLater
  | ipamFailure
  | configInterfaceFailure
  | checkInterfaceFailure
  | unknownRpcError
  | incompatibleApiVersion
  deriving DecidableEq, Repr, Inhabited

namespace Code

/-- The number of a code. -/
def number : Code → Nat
  | unknown => 0
  | incompatibleCniVersion => 1
  | unsupportedField => 2
  | unknownContainer => 3
  | invalidEnvironmentVariables => 4
  | ioFailure => 5
  | decodingFailure => 6
  | invalidNetworkConfig => 7
  | tryAgainLater => 11
  | ipamFailure => 101
  | configInterfaceFailure => 102
  | checkInterfaceFailure => 103
  | unknownRpcError => 201
  | incompatibleApiVersion => 202

/-- The code of a number. -/
def ofNumber? (n : Int) : Option Code :=
  if n = 0 then some unknown
  else if n = 1 then some incompatibleCniVersion
  else if n = 2 then some unsupportedField
  else if n = 3 then some unknownContainer
  else if n = 4 then some invalidEnvironmentVariables
  else if n = 5 then some ioFailure
  else if n = 6 then some decodingFailure
  else if n = 7 then some invalidNetworkConfig
  else if n = 11 then some tryAgainLater
  else if n = 101 then some ipamFailure
  else if n = 102 then some configInterfaceFailure
  else if n = 103 then some checkInterfaceFailure
  else if n = 201 then some unknownRpcError
  else if n = 202 then some incompatibleApiVersion
  else none

/-- The name of a code. -/
def name : Code → String
  | unknown => "Unknown"
  | incompatibleCniVersion => "IncompatibleCniVersion"
  | unsupportedField => "UnsupportedField"
  | unknownContainer => "UnknownContainer"
  | invalidEnvironmentVariables => "InvalidEnvironmentVariables"
  | ioFailure => "IoFailure"
  | decodingFailure => "DecodingFailure"
  | invalidNetworkConfig => "InvalidNetworkConfig"
  | tryAgainLater => "TryAgainLater"
  | ipamFailure => "IpamFailure"
  | configInterfaceFailure => "ConfigInterfaceFailure"
  | checkInterfaceFailure => "CheckInterfaceFailure"
  | unknownRpcError => "UnknownRpcError"
  | incompatibleApiVersion => "IncompatibleApiVersion"

/-- What is said of a number that is no code. -/
def unknownMessage (n : Int) : String :=
  "unknown error code " ++ toString n

theorem ofNumber?_number (c : Code) : ofNumber? c.number = some c := by
  cases c <;> decide

end Code

/-- An error as the runtime gets it. -/
structure CallError where
  code : Code
  message : String
  deriving DecidableEq, Repr, Inhabited

/-- The error in one line. -/
def CallError.text (e : CallError) : String :=
  e.code.name ++ ": " ++ e.message

/-- Something in a request could not be read. -/
def CallError.undecodable (what : String) : CallError :=
  ⟨.decodingFailure, "Failed to decode " ++ what⟩

/-- The request has to be repeated later. -/
def CallError.busy : CallError :=
  ⟨.tryAgainLater, "Server is busy, please retry later"⟩

end PodAttach.Cni
