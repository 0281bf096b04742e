import PodAttach.Json.Value

/-!
# Records in JSON

A record has named fields in a fixed order.  It may be written as an object,
in which fields that the record does not have are passed over and no field
of the record is given twice, or as an array of its fields in order, of which
the last may be left out.  What stands in a field is read by a function of
the field's type.
-/

namespace PodAttach.Json

/-- The fields of a record that are given. -/
abbrev Fields (α : Type) := List (String × α)

/-- Whether some key occurs twice. -/
def hasRepeat : List String → Bool
  | [] => false
  | k :: ks => ks.contains k || hasRepeat ks

namespace Document

/-- The members of an object with their keys read; nothing if a key is no text. -/
def keyed? : List (Bytes × Document) → Option (Fields Document)
  | [] => some []
  | (k, d) :: rest => do
    let key ← textOf? k
    let more ← keyed? rest
    return (key, d) :: more

/-- The fields of a record with the given field names. -/
def record? (names : List String) : Document → Option (Fields Document)
  | .obj members => do
    let fields ← keyed? members
    let known := fields.filter fun (k, _) => names.contains k
    if hasRepeat (known.map Prod.fst) then none else some known
  | .arr items => if items.length ≤ names.length then some (names.zip items) else none
  | _ => none

/-- A text. -/
def text? : Document → Option String
  | .str raw => textOf? raw
  | _ => none

/-- A truth value. -/
def bool? : Document → Option Bool
  | .bool b => some b
  | _ => none

/-- A whole number written without fraction and exponent. -/
def int? : Document → Option Int
  | .num n =>
    if n.fraction.isSome || n.exponent.isSome then none
    else
      let v := Text.ofDigits n.whole
      if n.negative then (if v == 0 then none else some (-(v : Int))) else some v
  | _ => none

/-- A natural number up to `max`. -/
def nat? (max : Nat) (d : Document) : Option Nat :=
  match d.int? with
  | some (.ofNat n) => if n ≤ max then some n else none
  | _ => none

/-- A list with items of one type. -/
def list? {α : Type} (item : Document → Option α) : Document → Option (List α)
  | .arr items => items.mapM item
  | _ => none

/-- Something, or `null` for nothing. -/
def optional? {α : Type} (item : Document → Option α) : Document → Option (Option α)
  | .null => some none
  | d => (item d).map some

end Document

namespace Fields

/-- A field that has to be given. -/
def required? {α β : Type} (fs : Fields α) (name : String) (read : α → Option β) :
    Option β :=
  match fs.lookup name with
  | some d => read d
  | none => none

/-- A field with a value for when it is not given. -/
def withDefault? {α β : Type} (fs : Fields α) (name : String) (default : β)
    (read : α → Option β) : Option β :=
  match fs.lookup name with
  | some d => read d
  | none => some default

end Fields

/-- The fields of a record that is given as a value. -/
def record? (names : List String) : Json → Option (Fields Json)
  | .obj members => some (members.filter fun (k, _) => names.contains k)
  | .arr items => if items.length ≤ names.length then some (names.zip items) else none
  | _ => none

/-- A list with items of one type. -/
def list? {α : Type} (item : Json → Option α) : Json → Option (List α)
  | .arr items => items.mapM item
  | _ => none

end PodAttach.Json
