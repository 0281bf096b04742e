import PodAttach.Json.Basic
import PodAttach.Json.Document
import PodAttach.Table

/-!
# The value of a JSON document

A document that is kept becomes a value: every string has to be a text,
every number has to be in range, members are put in the order of their keys
with the last of equal keys winning, and nesting is bounded.
-/

namespace PodAttach.Json

namespace Numeral

/-- The largest whole number that is kept exactly. -/
def maxWhole : Nat := 0xFFFFFFFFFFFFFFFF

/-- The magnitude of the smallest whole number that is kept exactly. -/
def minWhole : Nat := 0x8000000000000000

/-- The largest exponent that is read. -/
def maxExponent : Nat := 0x7FFFFFFF

/-- Takes digits as long as the number stays within `maxWhole`: the number, and the digits left. -/
def absorb (n : Nat) : List Char → Nat × List Char
  | [] => (n, [])
  | d :: ds =>
    let m := n * 10 + Text.digitValue d
    if m ≤ maxWhole then absorb m ds else (n, d :: ds)

/-- The power of ten as a floating point number. -/
def powerOfTen (k : Nat) : Magnitude :=
  (Magnitude.ofNat (Nat.pow 10 k)).getD .zero

/-- The largest power of ten that one multiplication or division takes. -/
def maxPower : Nat := 308

/-- Scales by a power of ten, `10 ^ 308` at a time; nothing if the result is too large.  Two
divisions by `10 ^ 308` bring every significand to zero, so `rounds` never runs out first. -/
def scale (x : Magnitude) (e : Int) : (rounds : Nat) → Option Magnitude
  | 0 => some x
  | rounds + 1 =>
    if e.natAbs ≤ maxPower then
      if 0 ≤ e then x.mul (powerOfTen e.natAbs) else x.div (powerOfTen e.natAbs)
    else if x.isZero then some x
    else if 0 ≤ e then none
    else match x.div (powerOfTen maxPower) with
      | some y => scale y (e + maxPower) rounds
      | none => none

/-- The floating point number `significand * 10 ^ e`. -/
def realOf (negative : Bool) (significand : Nat) (e : Int) : Option Json :=
  match Magnitude.ofNat significand with
  | some x => (scale x e 4).map fun m => .real ⟨negative, m⟩
  | none => none

/-- The value of a number that is not a whole number within range. -/
def real? (n : Numeral) : Option Json :=
  let (sig, left) := absorb 0 n.whole
  let (sig, taken) := match n.fraction with
    | none => (sig, 0)
    | some ds => let (sig, rest) := absorb sig ds; (sig, ds.length - rest.length)
  let start : Int := (left.length : Int) - taken
  match n.exponent with
  | none => realOf n.negative sig start
  | some (negative, ds) =>
    let e := Text.ofDigits ds
    if maxExponent < e then
      if sig == 0 || negative then some (.real ⟨n.negative, .zero⟩) else none
    else realOf n.negative sig (if negative then start - e else start + e)

/-- The value of a number: a whole number from `-2^63` to `2^64 - 1` exactly, any other one as
the floating point number that its digits lead to.  Nothing if that is too large. -/
def value? (n : Numeral) : Option Json :=
  match n.fraction, n.exponent with
  | none, none =>
    let v := Text.ofDigits n.whole
    if !n.negative && v ≤ maxWhole then some (.int v)
    else if n.negative && 0 < v && v ≤ minWhole then some (.int (-(v : Int)))
    else n.real?
  | _, _ => n.real?

end Numeral

mutual

/-- The value of a document in which at most `depth` containers lie inside each other. -/
def Document.value? (depth : Nat) : Document → Option Json
  | .null => some .null
  | .bool b => some (.bool b)
  | .num n => n.value?
  | .str raw => (textOf? raw).map .str
  | .arr items => match depth with
    | 0 => none
    | depth + 1 => (Document.values? depth items).map .arr
  | .obj members => match depth with
    | 0 => none
    | depth + 1 => (Document.memberValues? depth members []).map .obj

/-- The values of a list of documents. -/
def Document.values? (depth : Nat) : List Document → Option (List Json)
  | [] => some []
  | d :: rest => do
    let v ← d.value? depth
    let vs ← Document.values? depth rest
    return v :: vs

/-- The members of an object, put one after the other into those before them. -/
def Document.memberValues? (depth : Nat) :
    List (Bytes × Document) → List (String × Json) → Option (List (String × Json))
  | [], done => some done
  | (k, d) :: rest, done => do
    let key ← textOf? k
    let v ← d.value? depth
    Document.memberValues? depth rest (Table.put key v done)

end

/-- How many containers may lie inside each other in a value. -/
def maxDepth : Nat := 127

/-- The value that the bytes spell. -/
def parse? (bytes : Bytes) : Option Json :=
  match Document.parse? bytes with
  | some d => d.value? maxDepth
  | none => none

end PodAttach.Json
