import PodAttach.Json.Basic
import PodAttach.Duration
import PodAttach.Table
import PodAttach.Text.Utf8

/-!
# Values as they are shown

Small values in JSON: what may be missing, bytes, tables and durations.
-/

namespace PodAttach.View

/-- A text. -/
def str (s : String) : Json := .str s

/-- A value, or null. -/
def orNull (v : Option Json) : Json := v.getD .null

/-- A text, or null. -/
def optStr (s : Option String) : Json := orNull (s.map .str)

/-- A number, or null. -/
def optNat (n : Option Nat) : Json := orNull (n.map Json.nat)

/-- Bytes as pairs of hexadecimal digits. -/
def hexText (bytes : Bytes) : String :=
  String.ofList
    (bytes.flatMap fun b => [Text.hexDigit (b.toNat / 16), Text.hexDigit (b.toNat % 16)])

/-- Bytes: as a text if they are one, else in base sixteen. -/
def bytes (bs : Bytes) : Json :=
  match Utf8.decode? bs with
  | some s => .str s
  | none => .obj [("hex", str (hexText bs))]

/-- A table. -/
def table {α : Type} (f : α → Json) (t : Table α) : Json :=
  .obj (t.entries.map fun (k, v) => (k, f v))

/-- Texts in the order of their characters. -/
def sorted (xs : List String) : Json :=
  .texts (xs.mergeSort Text.notAfter)

/-- A duration in whole milliseconds; a text, since it may be large. -/
def millis (d : Duration) : Json := str (Text.decimal d.millis)

end PodAttach.View
