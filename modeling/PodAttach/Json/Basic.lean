import PodAttach.Number.Shortest
import PodAttach.Text.Utf8

/-!
# JSON values and their text

A value, and the one text in which it is written: no white space, members
in their given order, and in strings only the quote, the backslash and
control characters escaped.
-/

namespace PodAttach

/-- A JSON value.  Whole numbers are apart from those written with a fraction or an exponent. -/
inductive Json where
  | null
  | bool (b : Bool)
  | int (i : Int)
  | real (x : Binary64)
  | str (s : String)
  | arr (items : List Json)
  | obj (members : List (String × Json))
  deriving Repr, Inhabited

namespace Json

/-- A natural number as a value. -/
def nat (n : Nat) : Json := .int n

/-- A character as it stands inside a string. -/
def escapeChar (c : Char) : List Char :=
  if c == '"' then ['\\', '"']
  else if c == '\\' then ['\\', '\\']
  else if c == '\n' then ['\\', 'n']
  else if c == '\r' then ['\\', 'r']
  else if c == '\t' then ['\\', 't']
  else if c.toNat == 8 then ['\\', 'b']
  else if c.toNat == 12 then ['\\', 'f']
  else if c.toNat < 0x20 then ['\\', 'u'] ++ Text.hexDigits 4 c.toNat
  else [c]

/-- The text of a string, with its quotes. -/
def stringChars (s : String) : List Char :=
  '"' :: s.toList.flatMap escapeChar ++ ['"']

mutual

/-- The characters of a value's text. -/
def chars : Json → List Char
  | .null => ['n', 'u', 'l', 'l']
  | .bool true => ['t', 'r', 'u', 'e']
  | .bool false => ['f', 'a', 'l', 's', 'e']
  | .int i => (Text.decimalInt i).toList
  | .real x => x.render.toList
  | .str s => stringChars s
  | .arr items => '[' :: itemsChars items ++ [']']
  | .obj members => '\x7b' :: membersChars members ++ ['\x7d']

/-- The items of an array with commas between them. -/
def itemsChars : List Json → List Char
  | [] => []
  | [v] => chars v
  | v :: w :: rest => chars v ++ ',' :: itemsChars (w :: rest)

/-- The members of an object with commas between them. -/
def membersChars : List (String × Json) → List Char
  | [] => []
  | [(k, v)] => stringChars k ++ ':' :: chars v
  | (k, v) :: m :: rest => stringChars k ++ ':' :: chars v ++ ',' :: membersChars (m :: rest)

end

/-- The text of a value. -/
def render (v : Json) : String :=
  String.ofList v.chars

/-- The members among those given that hold something, in order. -/
def ofFields (fields : List (String × Option Json)) : Json :=
  .obj (fields.filterMap fun (k, v) => v.map (k, ·))

/-- A list of texts as a value. -/
def texts (xs : List String) : Json :=
  .arr (xs.map .str)

/-- A list as a value, nothing if it is empty. -/
def nonempty? (items : List Json) : Option Json :=
  if items.isEmpty then none else some (.arr items)

/-- The value of a member of an object; nothing for other values. -/
def member? (v : Json) (key : String) : Option Json :=
  match v with
  | .obj members => members.lookup key
  | _ => none

/-- The items of an array. -/
def items? : Json → Option (List Json)
  | .arr items => some items
  | _ => none

/-- The text of a string. -/
def str? : Json → Option String
  | .str s => some s
  | _ => none

end Json

end PodAttach
