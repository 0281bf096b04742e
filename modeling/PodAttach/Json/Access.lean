import PodAttach.Json.Basic

/-!
# Members with defaults

What the members of an object hold, with a plain default where a member is
missing or of another kind.
-/

namespace PodAttach.Json.Access

/-- A member, or null. -/
def field (v : Json) (k : String) : Json := (v.member? k).getD .null

/-- The text of a member, or the empty one. -/
def text (v : Json) (k : String) : String :=
  match field v k with
  | .str s => s
  | _ => ""

/-- The items of a member, or none. -/
def items (v : Json) (k : String) : List Json :=
  match field v k with
  | .arr xs => xs
  | _ => []

/-- The members of a member, or none. -/
def members (v : Json) (k : String) : List (String × Json) :=
  match field v k with
  | .obj ms => ms
  | _ => []

/-- The text of a value, or the empty one. -/
def asText : Json → String
  | .str s => s
  | _ => ""

/-- The texts in a member. -/
def texts (v : Json) (k : String) : List String := (items v k).map asText

/-- The number that a value is. -/
def asNat? : Json → Option Nat
  | .int (.ofNat n) => some n
  | _ => none

/-- The number in a member. -/
def nat? (v : Json) (k : String) : Option Nat := asNat? (field v k)

/-- The number in a member, or zero. -/
def nat (v : Json) (k : String) : Nat := (nat? v k).getD 0

/-- The integer in a member, or zero. -/
def int (v : Json) (k : String) : Int :=
  match field v k with
  | .int i => i
  | _ => 0

/-- The text in a member. -/
def text? (v : Json) (k : String) : Option String := (field v k).str?

/-- The truth value in a member, or false. -/
def flag (v : Json) (k : String) : Bool :=
  match field v k with
  | .bool b => b
  | _ => false

end PodAttach.Json.Access
