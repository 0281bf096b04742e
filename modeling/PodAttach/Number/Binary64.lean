/-!
# Binary floating point of 64 bits

A finite magnitude is `mantissa * 2 ^ exponent` with at most 53 bits of
mantissa and an exponent of at least `-1074`.  `ofRatio` rounds a quotient to
the nearest magnitude, a tie to the even mantissa; a product and a quotient
of magnitudes are the exact result, rounded once.
-/

namespace PodAttach

/-- A finite magnitude of the format. -/
structure Magnitude where
  mantissa : Nat
  exponent : Int
  deriving DecidableEq, Repr, Inhabited

namespace Magnitude

/-- The least exponent. -/
def minExponent : Int := -1074

/-- The greatest exponent of a full mantissa. -/
def maxExponent : Int := 971

/-- Nothing. -/
def zero : Magnitude := ⟨0, minExponent⟩

/-- Whether the magnitude is zero. -/
def isZero (x : Magnitude) : Bool := x.mantissa == 0

/-- The magnitude as numerator and denominator. -/
def ratio (x : Magnitude) : Nat × Nat :=
  if x.exponent < 0 then (x.mantissa, Nat.pow 2 x.exponent.natAbs)
  else (x.mantissa * Nat.pow 2 x.exponent.natAbs, 1)

/-- A quotient rounded to a whole number, a half to the even neighbour. -/
def roundDiv (num den : Nat) : Nat :=
  let q := num / den
  let r := num % den
  if 2 * r < den then q
  else if den < 2 * r then q + 1
  else if q % 2 == 0 then q else q + 1

/-- The quotient `num / den` in units of `2 ^ e`, as numerator and denominator. -/
def inUnits (num den : Nat) (e : Int) : Nat × Nat :=
  if e < 0 then (num * Nat.pow 2 e.natAbs, den) else (num, den * Nat.pow 2 e.natAbs)

/-- The exponent at which `num / den` has a mantissa of 53 bits, if it is not too small. -/
def unitOf (num den : Nat) : Int :=
  let e : Int := (Nat.log2 num : Int) - Nat.log2 den - 52
  let (n, d) := inUnits num den e
  max minExponent (if n / d < Nat.pow 2 52 then e - 1 else e)

/-- The magnitude nearest to `num / den`; nothing if it is beyond the largest one. -/
def ofRatio (num den : Nat) : Option Magnitude :=
  if num == 0 then some zero
  else
    let e := unitOf num den
    let (n, d) := inUnits num den e
    let m := roundDiv n d
    let x : Magnitude := if m == Nat.pow 2 53 then ⟨Nat.pow 2 52, e + 1⟩ else ⟨m, e⟩
    if maxExponent < x.exponent then none else some x

/-- The magnitude nearest to a natural number. -/
def ofNat (n : Nat) : Option Magnitude := ofRatio n 1

/-- The rounded product. -/
def mul (x y : Magnitude) : Option Magnitude :=
  let (a, b) := x.ratio
  let (c, d) := y.ratio
  ofRatio (a * c) (b * d)

/-- The rounded quotient by a magnitude other than zero. -/
def div (x y : Magnitude) : Option Magnitude :=
  let (a, b) := x.ratio
  let (c, d) := y.ratio
  ofRatio (a * d) (b * c)

end Magnitude

/-- A finite floating point number: a magnitude and its sign. -/
structure Binary64 where
  negative : Bool
  magnitude : Magnitude
  deriving DecidableEq, Repr, Inhabited

end PodAttach
