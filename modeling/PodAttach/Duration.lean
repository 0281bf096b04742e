import PodAttach.Text.Blank
import PodAttach.Text.Digits

/-!
# Durations

Lengths of time in whole nanoseconds, the texts in which configurations
give them (`500ms`, `30s`, `2m`), and the text in which messages show them.
-/

namespace PodAttach

/-- A length of time. -/
structure Duration where
  nanos : Nat
  deriving DecidableEq, Repr, Inhabited

namespace Duration

/-- So many milliseconds. -/
def ofMillis (n : Nat) : Duration := ⟨n * 1000000⟩

/-- So many seconds. -/
def ofSecs (n : Nat) : Duration := ⟨n * 1000000000⟩

/-- No time at all. -/
def zero : Duration := ⟨0⟩

/-- Whether it is no time at all. -/
def isZero (d : Duration) : Bool := d.nanos == 0

/-- The whole seconds in it. -/
def secs (d : Duration) : Nat := d.nanos / 1000000000

/-- The whole milliseconds in it. -/
def millis (d : Duration) : Nat := d.nanos / 1000000

/-- The milliseconds past the last whole second. -/
def subsecMillis (d : Duration) : Nat := d.millis % 1000

/-- Both one after the other. -/
def add (d e : Duration) : Duration := ⟨d.nanos + e.nanos⟩

instance : Add Duration := ⟨add⟩

/-! ## In configurations -/

/-- The largest number that a duration is given with. -/
def maxAmount : Nat := 0xFFFFFFFFFFFFFFFF

/-- The seconds of so many minutes, in 64 bits; what is over is cut off. -/
def minuteSecs (n : Nat) : Nat := n * 60 % (maxAmount + 1)

/-- So many of a unit: none or `s`, `ms`, or `m`. -/
def ofUnit? (n : Nat) : List Char → Option Duration
  | [] => some (ofSecs n)
  | ['s'] => some (ofSecs n)
  | ['m', 's'] => some (ofMillis n)
  | ['m'] => some (ofSecs (minuteSecs n))
  | _ => none

/-- A number of digits and a unit. -/
def ofChars? (cs : List Char) : Option Duration :=
  match Text.readNat? (cs.takeWhile Text.isDigit) with
  | none => none
  | some n => if maxAmount < n then none else ofUnit? n (cs.dropWhile Text.isDigit)

/-- The duration that a text gives; white space around it does not count. -/
def parse? (s : String) : Option Duration :=
  ofChars? (Text.trimChars s.toList)

/-- A limit that a text gives: `none` and zero are no limit. -/
def parseLimit? (s : String) : Option (Option Duration) :=
  if Text.sameLetters (Text.trim s) "none" then some none
  else match parse? s with
    | some d => some (if d.isZero then none else some d)
    | none => none

/-- The text of a duration in a configuration: in milliseconds if it has some past its last
whole second, else in seconds. -/
def render (d : Duration) : String :=
  if d.subsecMillis != 0 then Text.decimal d.millis ++ "ms"
  else Text.decimal d.secs ++ "s"

/-! ## In messages -/

/-- A number of units and the rest below one unit, as a decimal with no zeros at its end;
`places` is the number of digits that the rest has. -/
def withFraction (whole rest places : Nat) : String :=
  let ds := Nat.toDigits 10 rest
  let padded := List.replicate (places - ds.length) '0' ++ ds
  let kept := (padded.reverse.dropWhile (· == '0')).reverse
  if rest == 0 then Text.decimal whole
  else Text.decimal whole ++ "." ++ String.ofList kept

/-- The text of a duration in a message, in the largest unit of which there is at least one. -/
def spelled (d : Duration) : String :=
  let n := d.nanos
  if 1000000000 ≤ n then withFraction (n / 1000000000) (n % 1000000000) 9 ++ "s"
  else if 1000000 ≤ n then withFraction (n / 1000000) (n % 1000000) 6 ++ "ms"
  else if 1000 ≤ n then withFraction (n / 1000) (n % 1000) 3 ++ "µs"
  else Text.decimal n ++ "ns"

end Duration

end PodAttach
