import PodAttach.Text.Utf8
import PodAttach.Text.Digits

/-!
# JSON tokens

Bytes are cut into tokens by an automaton that takes them one at a time.
A string token keeps the bytes between its quotes as they were written:
that every escape is spelled out is seen here, but whether the escapes and
bytes make a text is judged only where the text is wanted (`textOf?`).
-/

namespace PodAttach.Json

/-- A number as it is written. -/
structure Numeral where
  negative : Bool
  /-- The digits before the point. -/
  whole : List Char
  /-- The digits after the point, if there is one. -/
  fraction : Option (List Char)
  /-- The sign of the exponent (true if negative) and its digits, if there is one. -/
  exponent : Option (Bool × List Char)
  deriving DecidableEq, Repr, Inhabited

/-- A token. -/
inductive Token where
  | openArray
  | closeArray
  | openObject
  | closeObject
  | comma
  | colon
  | null
  | bool (b : Bool)
  | num (n : Numeral)
  /-- A string; the bytes between the quotes. -/
  | str (raw : Bytes)
  deriving DecidableEq, Repr, Inhabited

/-! ## Numbers -/

/-- The digits at the front, and what follows them. -/
def spanDigits (cs : List Char) : List Char × List Char :=
  (cs.takeWhile Text.isDigit, cs.dropWhile Text.isDigit)

/-- The exponent that the characters denote; none for no characters. -/
def readExponent? : List Char → Option (Option (Bool × List Char))
  | [] => some none
  | e :: cs =>
    if e == 'e' || e == 'E' then
      let (negative, ds) := match cs with
        | '+' :: ds => (false, ds)
        | '-' :: ds => (true, ds)
        | ds => (false, ds)
      if ds.isEmpty || !ds.all Text.isDigit then none else some (some (negative, ds))
    else none

/-- A number: an optional minus sign, digits without a leading zero, then an optional fraction
and an optional exponent. -/
def Numeral.read? (cs : List Char) : Option Numeral := do
  let (negative, cs) := match cs with
    | '-' :: cs => (true, cs)
    | cs => (false, cs)
  let (whole, rest) := spanDigits cs
  if whole.isEmpty || (whole.head? == some '0' && 1 < whole.length) then none
  match rest with
  | '.' :: rest =>
    let (fraction, rest) := spanDigits rest
    if fraction.isEmpty then none
    let exponent ← readExponent? rest
    return ⟨negative, whole, some fraction, exponent⟩
  | rest =>
    let exponent ← readExponent? rest
    return ⟨negative, whole, none, exponent⟩

/-! ## The automaton -/

/-- Where the automaton stands inside a string. -/
inductive Escape where
  /-- Between characters. -/
  | plain
  /-- After a backslash. -/
  | slash
  /-- After the `u` of an escape, with so many hexadecimal digits to come. -/
  | hex (missing : Nat)
  deriving DecidableEq, Repr, Inhabited

/-- Where the automaton stands.  Bytes seen are kept with the last one first. -/
inductive Lexer.State where
  /-- Between tokens. -/
  | blank
  /-- In a number or a word. -/
  | word (seen : List Char)
  /-- In a string. -/
  | text (seen : Bytes) (escape : Escape)
  deriving DecidableEq, Repr, Inhabited

/-- The automaton: where it stands, and the tokens so far, the last one first. -/
structure Lexer where
  state : Lexer.State
  tokens : List Token
  deriving DecidableEq, Repr, Inhabited

/-- A byte that may stand in a number or a word. -/
def isWordByte (b : UInt8) : Bool :=
  let c := Char.ofNat b.toNat
  Text.isDigit c || ('a' ≤ c && c ≤ 'z') || ('A' ≤ c && c ≤ 'Z') ||
    c == '+' || c == '-' || c == '.'

/-- The token that a run of word characters makes. -/
def wordToken? (cs : List Char) : Option Token :=
  if cs == ['n', 'u', 'l', 'l'] then some .null
  else if cs == ['t', 'r', 'u', 'e'] then some (.bool true)
  else if cs == ['f', 'a', 'l', 's', 'e'] then some (.bool false)
  else (Numeral.read? cs).map .num

/-- The tokens after the word that ends here. -/
def endWord? (seen : List Char) (tokens : List Token) : Option (List Token) :=
  (wordToken? seen.reverse).map (· :: tokens)

/-- A byte between tokens. -/
def feedBlank (tokens : List Token) (b : UInt8) : Option Lexer :=
  if b == 0x20 || b == 0x0A || b == 0x0D || b == 0x09 then some ⟨.blank, tokens⟩
  else if b == 0x22 then some ⟨.text [] .plain, tokens⟩
  else if b == 0x5B then some ⟨.blank, .openArray :: tokens⟩
  else if b == 0x5D then some ⟨.blank, .closeArray :: tokens⟩
  else if b == 0x7B then some ⟨.blank, .openObject :: tokens⟩
  else if b == 0x7D then some ⟨.blank, .closeObject :: tokens⟩
  else if b == 0x2C then some ⟨.blank, .comma :: tokens⟩
  else if b == 0x3A then some ⟨.blank, .colon :: tokens⟩
  else if isWordByte b then some ⟨.word [Char.ofNat b.toNat], tokens⟩
  else none

/-- Whether a byte may follow a backslash, other than the `u` of an escape by number. -/
def isShortEscape (b : UInt8) : Bool :=
  b == 0x22 || b == 0x5C || b == 0x2F || b == 0x62 || b == 0x66 || b == 0x6E ||
    b == 0x72 || b == 0x74

/-- The next byte. -/
def Lexer.feed (l : Lexer) (b : UInt8) : Option Lexer :=
  match l.state with
  | .blank => feedBlank l.tokens b
  | .word seen =>
    if isWordByte b then some ⟨.word (Char.ofNat b.toNat :: seen), l.tokens⟩
    else match endWord? seen l.tokens with
      | some tokens => feedBlank tokens b
      | none => none
  | .text seen .plain =>
    if b == 0x22 then some ⟨.blank, .str seen.reverse :: l.tokens⟩
    else if b == 0x5C then some ⟨.text (b :: seen) .slash, l.tokens⟩
    else if b < 0x20 then none
    else some ⟨.text (b :: seen) .plain, l.tokens⟩
  | .text seen .slash =>
    if b == 0x75 then some ⟨.text (b :: seen) (.hex 4), l.tokens⟩
    else if isShortEscape b then some ⟨.text (b :: seen) .plain, l.tokens⟩
    else none
  | .text seen (.hex missing) =>
    if Text.isHexDigit (Char.ofNat b.toNat) then
      some ⟨.text (b :: seen) (if missing ≤ 1 then .plain else .hex (missing - 1)), l.tokens⟩
    else none

/-- The bytes one after the other. -/
def Lexer.run (l : Lexer) : Bytes → Option Lexer
  | [] => some l
  | b :: rest => match l.feed b with
    | some l => l.run rest
    | none => none

/-- The tokens at the end of the bytes. -/
def Lexer.finish? (l : Lexer) : Option (List Token) :=
  match l.state with
  | .blank => some l.tokens.reverse
  | .word seen => (endWord? seen l.tokens).map List.reverse
  | .text _ _ => none

/-- The tokens of a byte sequence. -/
def tokens? (bytes : Bytes) : Option (List Token) :=
  match (Lexer.mk .blank []).run bytes with
  | some l => l.finish?
  | none => none

/-! ## The text of a string -/

/-- The value of hexadecimal digits. -/
def hexByte? (b : UInt8) : Option Nat :=
  Text.hexValue? (Char.ofNat b.toNat)

/-- What a single character after a backslash stands for. -/
def shortEscape (b : UInt8) : UInt8 :=
  if b == 0x62 then 8
  else if b == 0x66 then 12
  else if b == 0x6E then 10
  else if b == 0x72 then 13
  else if b == 0x74 then 9
  else b

/-- The state of `unescape`: between characters, inside an escape with the digits so far, or
after the first half of a pair. -/
inductive Unescape where
  | plain
  | slash
  /-- In an escape by number: the first half of a pair before it, the value so far, and the
  digits to come. -/
  | hex (high : Option Nat) (value missing : Nat)
  /-- After the first half of a pair; the second half has to follow. -/
  | high (value : Nat)
  /-- After that and a backslash. -/
  | highSlash (value : Nat)
  deriving DecidableEq, Repr

/-- What an escape by number stands for, in the light of the half before it. -/
def closeHex (high : Option Nat) (value : Nat) (done : Bytes) : Option (Unescape × Bytes) :=
  match high with
  | none =>
    if 0xD800 ≤ value ∧ value ≤ 0xDBFF then some (.high value, done)
    else if 0xDC00 ≤ value ∧ value ≤ 0xDFFF then none
    else some (.plain, (Utf8.encodeChar (Char.ofNat value)).reverse ++ done)
  | some h =>
    if 0xDC00 ≤ value ∧ value ≤ 0xDFFF then
      let n := 0x10000 + (h - 0xD800) * 1024 + (value - 0xDC00)
      some (.plain, (Utf8.encodeChar (Char.ofNat n)).reverse ++ done)
    else none

/-- The bytes that the inside of a string stands for; nothing if an escape is half a pair.
`done` holds the bytes so far, the last one first. -/
def unescapeFrom (state : Unescape) (done : Bytes) : Bytes → Option Bytes
  | [] => match state with
    | .plain => some done.reverse
    | _ => none
  | b :: rest => match state with
    | .plain =>
      if b == 0x5C then unescapeFrom .slash done rest
      else unescapeFrom .plain (b :: done) rest
    | .slash =>
      if b == 0x75 then unescapeFrom (.hex none 0 4) done rest
      else unescapeFrom .plain (shortEscape b :: done) rest
    | .hex high value missing =>
      match hexByte? b with
      | none => none
      | some d =>
        if missing ≤ 1 then
          match closeHex high (value * 16 + d) done with
          | some (state, done) => unescapeFrom state done rest
          | none => none
        else unescapeFrom (.hex high (value * 16 + d) (missing - 1)) done rest
    | .high value =>
      if b == 0x5C then unescapeFrom (.highSlash value) done rest else none
    | .highSlash value =>
      if b == 0x75 then unescapeFrom (.hex (some value) 0 4) done rest else none

/-- The text of a string token: its escapes undone, and the result read as UTF-8. -/
def textOf? (raw : Bytes) : Option String :=
  match unescapeFrom .plain [] raw with
  | some bytes => Utf8.decode? bytes
  | none => none

end PodAttach.Json
