import PodAttach.Json.Value
import PodAttach.Switch.Basic
import PodAttach.Text.Blank

/-!
# Listings of the switch's database

The database lists a table as column headings and rows.  The ports of the
switch are joined from two tables: what a port is, and which OpenFlow number
the interface of its name has.
-/

namespace PodAttach.Switch

/-- A row: the cells by their headings, the last first. -/
abbrev Row := List (String × Json)

/-- A plain cell as a text. -/
def cellText? : Json → Option String
  | .str s => some s
  | .int i => some (Json.int i).render
  | .real x => some (Json.real x).render
  | .arr [.str "uuid", .str s] => some s
  | _ => none

/-- The pairs of a cell that holds a map; pairs that are not plain are passed over. -/
def cellPairs : Json → List (String × String)
  | .arr [.str "map", .arr pairs] => pairs.filterMap fun
    | .arr [k, v] => match cellText? k, cellText? v with
      | some k, some v => some (k, v)
      | _, _ => none
    | _ => none
  | _ => []

/-- A cell that holds a map. -/
def cellTable (v : Json) : Table String :=
  .ofList (cellPairs v)

/-- The cells of a row with their headings. -/
def rowOf (headings : List String) (cells : List Json) : Row :=
  (headings.zip cells).reverse

/-- The rows of a listing. -/
def readRows (output : String) : Except Error (List Row) :=
  match Json.parse? (Utf8.encode output) with
  | none => .error (.invalidOutput "list output: not a JSON document")
  | some v => match (v.member? "headings").bind Json.items? with
    | none => .error (.invalidOutput "list output without headings")
    | some headings => match (v.member? "data").bind Json.items? with
      | none => .error (.invalidOutput "list output without data")
      | some rows =>
        .ok ((rows.filterMap Json.items?).map (rowOf (headings.filterMap Json.str?)))

/-- The largest OpenFlow number. -/
def maxOfport : Nat := 0xFFFFFFFF

/-- The OpenFlow number that a text denotes.  A port without one shows a negative number or an
empty set. -/
def readOfport? (s : String) : Option Nat :=
  match Text.readSignedNat? (Text.trimChars s.toList) with
  | some n => if 0 < n && n ≤ maxOfport then some n else none
  | none => none

/-- The plain cell of a row under a heading. -/
def Row.text? (r : Row) (heading : String) : Option String :=
  (r.lookup heading).bind cellText?

/-- The name and the OpenFlow number of an interface. -/
def ofportOfRow? (r : Row) : Option (String × Nat) := do
  let name ← r.text? "name"
  let cell ← r.text? "ofport"
  let ofport ← readOfport? cell
  return (name, ofport)

/-- The port of a row. -/
def portOfRow? (ofports : Table Nat) (r : Row) : Option Port := do
  let uuid ← r.text? "_uuid"
  let name ← r.text? "name"
  let externalIds := ((r.lookup "external_ids").map cellTable).getD .empty
  return { uuid, name, ofport := ofports.get? name, externalIds }

/-- The ports of the switch, in the order of their names. -/
def joinPorts (ports interfaces : List Row) : List Port :=
  let ofports := Table.ofList (interfaces.filterMap ofportOfRow?)
  (ports.filterMap (portOfRow? ofports)).mergeSort fun a b => Text.notAfter a.name b.name

/-- The ports of the switch from the listings of both tables. -/
def readPorts (ports interfaces : String) : Except Error (List Port) :=
  match readRows interfaces with
  | .error e => .error e
  | .ok interfaces => match readRows ports with
    | .error e => .error e
    | .ok ports => .ok (joinPorts ports interfaces)

end PodAttach.Switch
