/-!
# UTF-8

Bytes and the text that they spell.  `decode` refuses ill-formed bytes and
names the first fault: where the fault begins, and how many bytes belong to
it, or that the bytes end inside a character.  `decodeLossy` puts U+FFFD in
the place of every fault instead.  `encode` is the one spelling of a text.
-/

namespace PodAttach

/-- A sequence of bytes. -/
abbrev Bytes := List UInt8

namespace Utf8

/-- Why bytes are not UTF-8. -/
inductive Fault where
  /-- The bytes from `index` on, `size` of them, start no character. -/
  | invalid (index size : Nat)
  /-- The bytes end inside a character that starts at `index`. -/
  | incomplete (index : Nat)
  deriving DecidableEq, Repr

/-- The wording of a fault. -/
def Fault.message : Fault → String
  | .invalid index size =>
    s!"invalid utf-8 sequence of {size} bytes from index {index}"
  | .incomplete index => s!"incomplete utf-8 byte sequence from index {index}"

/-- What one looks at when the next character is read. -/
inductive Scan where
  /-- A character of `size` bytes. -/
  | char (c : Char) (size : Nat)
  /-- The next `size` bytes start no character. -/
  | invalid (size : Nat)
  /-- The bytes end inside a character. -/
  | incomplete
  deriving DecidableEq, Repr

/-- A byte that continues a character. -/
def isTail (b : UInt8) : Bool :=
  0x80 ≤ b && b ≤ 0xBF

/-- The bytes that may come second after a first byte of a character of three bytes. -/
def isSecondOfThree (a b : UInt8) : Bool :=
  if a == 0xE0 then 0xA0 ≤ b && b ≤ 0xBF
  else if a == 0xED then 0x80 ≤ b && b ≤ 0x9F
  else isTail b

/-- The bytes that may come second after a first byte of a character of four bytes. -/
def isSecondOfFour (a b : UInt8) : Bool :=
  if a == 0xF0 then 0x90 ≤ b && b ≤ 0xBF
  else if a == 0xF4 then 0x80 ≤ b && b ≤ 0x8F
  else isTail b

/-- The character at the front of `a :: rest`. -/
def scan (a : UInt8) (rest : Bytes) : Scan :=
  let n := a.toNat
  if n < 0x80 then .char (Char.ofNat n) 1
  else if 0xC2 ≤ n ∧ n ≤ 0xDF then
    match rest with
    | [] => .incomplete
    | b :: _ =>
      if isTail b then .char (Char.ofNat ((n - 0xC0) * 64 + (b.toNat - 0x80))) 2
      else .invalid 1
  else if 0xE0 ≤ n ∧ n ≤ 0xEF then
    match rest with
    | [] => .incomplete
    | b :: rest =>
      if !isSecondOfThree a b then .invalid 1
      else match rest with
        | [] => .incomplete
        | c :: _ =>
          if isTail c then
            .char (Char.ofNat
              ((n - 0xE0) * 4096 + (b.toNat - 0x80) * 64 + (c.toNat - 0x80))) 3
          else .invalid 2
  else if 0xF0 ≤ n ∧ n ≤ 0xF4 then
    match rest with
    | [] => .incomplete
    | b :: rest =>
      if !isSecondOfFour a b then .invalid 1
      else match rest with
        | [] => .incomplete
        | c :: rest =>
          if !isTail c then .invalid 2
          else match rest with
            | [] => .incomplete
            | d :: _ =>
              if isTail d then
                .char (Char.ofNat
                  ((n - 0xF0) * 262144 + (b.toNat - 0x80) * 4096 +
                    (c.toNat - 0x80) * 64 + (d.toNat - 0x80))) 4
              else .invalid 3
  else .invalid 1

/-- Reads on from position `index`; the first `skip` bytes belong to a character already read,
and `done` holds the characters so far, the last one first. -/
def decodeFrom (index skip : Nat) (done : List Char) : Bytes → Except Fault (List Char)
  | [] => .ok done.reverse
  | a :: rest =>
    match skip with
    | k + 1 => decodeFrom (index + 1) k done rest
    | 0 => match scan a rest with
      | .char c size => decodeFrom (index + 1) (size - 1) (c :: done) rest
      | .invalid size => .error (.invalid index size)
      | .incomplete => .error (.incomplete index)

/-- The characters that the bytes spell, or the first fault in them. -/
def decodeChars (bytes : Bytes) : Except Fault (List Char) :=
  decodeFrom 0 0 [] bytes

/-- The text that the bytes spell, or the first fault in them. -/
def decode (bytes : Bytes) : Except Fault String :=
  (decodeChars bytes).map String.ofList

/-- The text that the bytes spell, if they are UTF-8. -/
def decode? (bytes : Bytes) : Option String :=
  match decode bytes with
  | .ok s => some s
  | .error _ => none

/-- The character that stands for bytes that spell none. -/
def replacement : Char := Char.ofNat 0xFFFD

/-- Reads on with every fault replaced. -/
def decodeLossyFrom (skip : Nat) (done : List Char) : Bytes → List Char
  | [] => done.reverse
  | a :: rest =>
    match skip with
    | k + 1 => decodeLossyFrom k done rest
    | 0 => match scan a rest with
      | .char c size => decodeLossyFrom (size - 1) (c :: done) rest
      | .invalid size => decodeLossyFrom (size - 1) (replacement :: done) rest
      | .incomplete => (replacement :: done).reverse

/-- The text that the bytes spell, with U+FFFD for every fault. -/
def decodeLossy (bytes : Bytes) : String :=
  String.ofList (decodeLossyFrom 0 [] bytes)

/-- The bytes of one character. -/
def encodeChar (c : Char) : Bytes :=
  let n := c.toNat
  if n < 0x80 then [UInt8.ofNat n]
  else if n < 0x800 then [UInt8.ofNat (0xC0 + n / 64), UInt8.ofNat (0x80 + n % 64)]
  else if n < 0x10000 then
    [UInt8.ofNat (0xE0 + n / 4096), UInt8.ofNat (0x80 + n / 64 % 64),
      UInt8.ofNat (0x80 + n % 64)]
  else
    [UInt8.ofNat (0xF0 + n / 262144), UInt8.ofNat (0x80 + n / 4096 % 64),
      UInt8.ofNat (0x80 + n / 64 % 64), UInt8.ofNat (0x80 + n % 64)]

/-- The bytes of a list of characters. -/
def encodeChars (cs : List Char) : Bytes :=
  cs.flatMap encodeChar

/-- The bytes of a text. -/
def encode (s : String) : Bytes :=
  encodeChars s.toList

/-- The number of bytes that a text takes. -/
def size (s : String) : Nat :=
  s.utf8ByteSize

/-- Whether a place in the bytes of a text is at an end of a character; `i` bytes are before it. -/
def isBoundary (bytes : Bytes) (i : Nat) : Bool :=
  i == 0 || match bytes[i]? with
    | some b => !isTail b
    | none => i == bytes.length

/-- The last such place with at most `i` bytes before it, looked for backwards. -/
def lastBoundary? (bytes : Bytes) : Nat → Option Nat
  | 0 => if isBoundary bytes 0 then some 0 else none
  | i + 1 => if isBoundary bytes (i + 1) then some (i + 1) else lastBoundary? bytes i

end Utf8

end PodAttach
