import PodAttach.Text.Digits
import PodAttach.Text.Split

/-!
# TOML scalars

Which runs of characters are truth values, numbers, dates or times.  What
they denote is of no interest here, only whether they are well formed.
-/

namespace PodAttach.Toml

/-- Digits in groups with single underscores between them. -/
def isGrouped (isDigit : Char → Bool) (cs : List Char) : Bool :=
  (Text.pieces '_' cs).all fun group => !group.isEmpty && group.all isDigit

/-- The characters without a sign before them. -/
def unsigned : List Char → List Char
  | '+' :: cs => cs
  | '-' :: cs => cs
  | cs => cs

/-- A decimal number without sign: no zero leads other digits. -/
def isDecimal (cs : List Char) : Bool :=
  isGrouped Text.isDigit cs && (cs.head? != some '0' || cs.length == 1)

/-- A digit of base eight. -/
def isOctalDigit (c : Char) : Bool :=
  '0' ≤ c && c ≤ '7'

/-- A digit of base two. -/
def isBinaryDigit (c : Char) : Bool :=
  c == '0' || c == '1'

/-- A whole number. -/
def isInteger : List Char → Bool
  | '0' :: 'x' :: cs => isGrouped Text.isHexDigit cs
  | '0' :: 'o' :: cs => isGrouped isOctalDigit cs
  | '0' :: 'b' :: cs => isGrouped isBinaryDigit cs
  | cs => isDecimal (unsigned cs)

/-- The characters before the first one of a kind, and those from it on. -/
def cutBefore (stop : Char → Bool) (cs : List Char) : List Char × List Char :=
  (cs.takeWhile fun c => !stop c, cs.dropWhile fun c => !stop c)

/-- A number with a fraction or an exponent, or one of those without digits. -/
def isFloat (cs : List Char) : Bool :=
  let cs := unsigned cs
  let (mantissa, exponent) := cutBefore (fun c => c == 'e' || c == 'E') cs
  let (whole, fraction) := cutBefore (· == '.') mantissa
  cs == "inf".toList || cs == "nan".toList ||
    (isDecimal whole && (!fraction.isEmpty || !exponent.isEmpty) &&
      (fraction.isEmpty || isGrouped Text.isDigit (fraction.drop 1)) &&
      (exponent.isEmpty || isGrouped Text.isDigit (unsigned (exponent.drop 1))))

/-! ## Dates and times -/

/-- A number of so many digits within bounds. -/
def isField (length low high : Nat) (cs : List Char) : Bool :=
  cs.length == length &&
    match Text.readNat? cs with
    | some n => low ≤ n && n ≤ high
    | none => false

/-- The number of days of a month. -/
def daysIn (year month : Nat) : Nat :=
  if month == 2 then
    if year % 4 == 0 && (year % 100 != 0 || year % 400 == 0) then 29 else 28
  else if [4, 6, 9, 11].contains month then 30
  else 31

/-- A day of the calendar. -/
def isDate (cs : List Char) : Bool :=
  match Text.pieces '-' cs with
  | [year, month, day] =>
    isField 4 0 9999 year && isField 2 1 12 month &&
      isField 2 1 (daysIn (Text.ofDigits year) (Text.ofDigits month)) day
  | _ => false

/-- Seconds, with a fraction or without. -/
def isSeconds (cs : List Char) : Bool :=
  let (whole, fraction) := cutBefore (· == '.') cs
  isField 2 0 60 whole &&
    (fraction.isEmpty || (1 < fraction.length && (fraction.drop 1).all Text.isDigit))

/-- A time of day, with seconds or without. -/
def isTime (cs : List Char) : Bool :=
  match Text.pieces ':' cs with
  | [hour, minute] => isField 2 0 23 hour && isField 2 0 59 minute
  | [hour, minute, second] => isField 2 0 23 hour && isField 2 0 59 minute && isSeconds second
  | _ => false

/-- A distance from universal time. -/
def isOffset : List Char → Bool
  | ['Z'] => true
  | ['z'] => true
  | sign :: cs =>
    (sign == '+' || sign == '-') &&
      match Text.pieces ':' cs with
      | [hour, minute] => isField 2 0 23 hour && isField 2 0 59 minute
      | _ => false
  | [] => false

/-- A date, a time, or both, then with a distance from universal time or without. -/
def isDateTime (cs : List Char) : Bool :=
  let (date, time) := cutBefore (fun c => c == 'T' || c == 't' || c == ' ') cs
  let (clock, offset) := cutBefore (fun c => ['Z', 'z', '+', '-'].contains c) (time.drop 1)
  isTime cs || isDate cs ||
    (isDate date && isTime clock && (offset.isEmpty || isOffset offset))

/-- Whether characters make up a scalar. -/
def isScalar (cs : List Char) : Bool :=
  cs == "true".toList || cs == "false".toList || isInteger cs || isFloat cs || isDateTime cs

end PodAttach.Toml
