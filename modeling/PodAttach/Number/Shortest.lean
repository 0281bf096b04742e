import PodAttach.Number.Binary64
import PodAttach.Text.Digits

/-!
# The shortest decimal text of a floating point number

Of the decimals that round to a magnitude, the text has one with the fewest
digits, and among those the one nearest to it, with an even last digit on a
tie.  `Layout` says where positional notation ends.
-/

namespace PodAttach

/-- A decimal `0.d₁d₂…dₙ * 10 ^ point`, with neither a leading nor a trailing zero. -/
structure Decimal where
  digits : List Char
  point : Int
  deriving DecidableEq, Repr, Inhabited

namespace Magnitude

/-- The least `j` from `j` on with `den ≤ num * 10 ^ j`, at most `fuel` steps away. -/
def leadingZeros (num den : Nat) (j : Nat) : Nat → Nat
  | 0 => j
  | fuel + 1 => if den ≤ num * Nat.pow 10 j then j else leadingZeros num den (j + 1) fuel

/-- The position of the first digit of `num / den`: `10 ^ p` is its weight. -/
def leadingPlace (num den : Nat) : Int :=
  if den ≤ num then ((Nat.toDigits 10 (num / den)).length : Int) - 1
  else - (leadingZeros num den 1 400 : Int)

/-- Whether the decimal `d * 10 ^ p` rounds to the magnitude: it lies between the midpoints to
its neighbours, on one of them only if the mantissa is even. -/
def accepts (x : Magnitude) (d : Nat) (p : Int) : Bool :=
  let low := if x.mantissa == Nat.pow 2 52 && x.exponent != minExponent
    then 4 * x.mantissa - 1 else 4 * x.mantissa - 2
  let high := 4 * x.mantissa + 2
  let (unitNum, unitDen) := ratio ⟨1, x.exponent - 2⟩
  let (n, den) := if p < 0 then (d, Nat.pow 10 p.natAbs) else (d * Nat.pow 10 p.natAbs, 1)
  let value := n * unitDen
  let lowest := low * unitNum * den
  let highest := high * unitNum * den
  if x.mantissa % 2 == 0 then lowest ≤ value && value ≤ highest
  else lowest < value && value < highest

/-- The decimal with weight `10 ^ p` in its last place that rounds to the magnitude and is
nearest to it, if there is one. -/
def onGrid? (x : Magnitude) (p : Int) : Option Nat :=
  let (a, b) := x.ratio
  let (num, den) := if p < 0 then (a * Nat.pow 10 p.natAbs, b) else (a, b * Nat.pow 10 p.natAbs)
  let below := num / den
  let near := roundDiv num den
  let far := if near == below then below + 1 else below
  if x.accepts near p then some near
  else if x.accepts far p then some far
  else none

/-- The first grid, from `n` digits on, with a decimal that rounds to the magnitude. -/
def search (x : Magnitude) (place : Int) (n : Nat) : Nat → Nat × Int
  | 0 => (0, 0)
  | fuel + 1 =>
    let p := place - n + 1
    match x.onGrid? p with
    | some d => (d, p)
    | none => search x place (n + 1) fuel

/-- The shortest decimal of a magnitude other than zero. -/
def shortest (x : Magnitude) : Decimal :=
  let (a, b) := x.ratio
  let (d, p) := x.search (leadingPlace a b) 1 17
  let ds := Nat.toDigits 10 d
  let kept := (ds.reverse.dropWhile (· == '0')).reverse
  ⟨kept, p + ds.length⟩

end Magnitude

namespace Binary64

/-- Zeros. -/
def zeros (n : Nat) : List Char := List.replicate n '0'

/-- Up to 16 places stand before the point and up to four zeros after it; other numbers have an
exponent.  A number without a fraction ends in `.0`. -/
def layout (x : Decimal) : List Char :=
  let n : Int := x.digits.length
  if n ≤ x.point ∧ x.point ≤ 16 then
    x.digits ++ zeros (x.point - n).toNat ++ ['.', '0']
  else if 0 < x.point ∧ x.point ≤ 16 then
    x.digits.take x.point.toNat ++ '.' :: x.digits.drop x.point.toNat
  else if -5 < x.point ∧ x.point ≤ 0 then
    ['0', '.'] ++ zeros x.point.natAbs ++ x.digits
  else
    let mantissa := match x.digits with
      | [] => ['0']
      | [d] => [d]
      | d :: ds => d :: '.' :: ds
    mantissa ++ 'e' :: (Text.decimalInt (x.point - 1)).toList

/-- The text of a number. -/
def render (x : Binary64) : String :=
  let sign := if x.negative then "-" else ""
  if x.magnitude.isZero then sign ++ "0.0"
  else sign ++ String.ofList (layout x.magnitude.shortest)

end Binary64

end PodAttach
