import PodAttach.Toml.Scalar
import PodAttach.Toml.Token
import PodAttach.Toml.Value

/-!
# TOML documents

The table that a document spells.  It is built from the tokens by a machine
with a stack of the arrays and tables still open in the value being read, so
nesting has no bound.
-/

namespace PodAttach.Toml

/-- What a key is for. -/
inductive Place where
  /-- The header of a table. -/
  | header
  /-- The header of a table in an array. -/
  | item
  /-- A value. -/
  | pair
  deriving DecidableEq, Repr, Inhabited

/-- A container that is still open. -/
inductive Frame where
  /-- The document itself; the value of this key is being read. -/
  | line (path : List String)
  /-- An array; its items so far, the last first. -/
  | arr (items : List Value)
  /-- A table between braces. -/
  | table (entries : Entries)
  /-- Such a table; the value of this key is being read. -/
  | member (entries : Entries) (path : List String)
  deriving Repr, Inhabited

/-- What may come next. -/
inductive Expect where
  /-- A line. -/
  | line
  /-- What follows the first bracket of a header. -/
  | header
  /-- A part of a key; the parts before it, the last first. -/
  | key (place : Place) (path : List String)
  /-- A dot, or what ends the key. -/
  | afterKey (place : Place) (path : List String)
  /-- The second bracket that ends the header of a table in an array. -/
  | bracket (path : List String)
  /-- The end of the line. -/
  | lineEnd
  /-- A value, or the end of an array. -/
  | value
  /-- More of a scalar; what was seen of it, the last character first. -/
  | scalar (seen : List Char)
  /-- The time after a date and a blank, or what follows a scalar. -/
  | scalarOrTime (seen : List Char)
  /-- A comma, or the end of the container on top. -/
  | separator
  /-- A key, or the end of the table on top. -/
  | member
  deriving Repr, Inhabited

/-- The machine that builds a document. -/
structure Builder where
  root : Entries := []
  /-- The table that lines add to. -/
  current : List String := []
  stack : List Frame := []
  expect : Expect := .line
  deriving Repr, Inhabited

namespace Builder

/-- A character of a key without quotes. -/
def isBareKey (c : Char) : Bool :=
  ('a' ≤ c && c ≤ 'z') || ('A' ≤ c && c ≤ 'Z') || Text.isDigit c || c == '_' || c == '-'

/-- The part of a key that a token is. -/
def keyPart? : Token → Option String
  | .word cs => if cs.all isBareKey then some (String.ofList cs) else none
  | .str false cs => some (String.ofList cs)
  | _ => none

/-- A value is complete: it goes into the container on top. -/
def complete (b : Builder) (v : Value) : Option Builder :=
  match b.stack with
  | .line path :: stack => do
    let root ← b.root.at? false (·.addAt? path v) b.current
    some { b with root, stack, expect := .lineEnd }
  | .arr items :: stack =>
    some { b with stack := .arr (v :: items) :: stack, expect := .separator }
  | .member entries path :: stack => do
    let entries ← entries.addAt? path v
    some { b with stack := .table entries :: stack, expect := .separator }
  | _ => none

/-- The array on top ends. -/
def closeArray (b : Builder) : Option Builder :=
  match b.stack with
  | .arr items :: stack => { b with stack }.complete (.arr false items.reverse)
  | _ => none

/-- The table on top ends. -/
def closeTable (b : Builder) : Option Builder :=
  match b.stack with
  | .table entries :: stack => { b with stack }.complete (.table .braces entries)
  | _ => none

/-- A header opens a table. -/
def enter (b : Builder) (path : List String) (root : Option Entries) : Option Builder :=
  root.map fun root => { b with root, current := path, expect := .lineEnd }

/-- A part of a key. -/
def feedKey (b : Builder) (place : Place) (path : List String) (t : Token) : Option Builder :=
  match t with
  | .blank => some { b with expect := .key place path }
  | t => (keyPart? t).map fun part => { b with expect := .afterKey place (part :: path) }

/-- What follows a part of a key. -/
def feedAfterKey (b : Builder) (place : Place) (path : List String) (t : Token) :
    Option Builder :=
  match place, t with
  | _, .blank => some b
  | _, .dot => some { b with expect := .key place path }
  | .header, .closeBracket => b.enter path.reverse (b.root.openTable? path.reverse)
  | .item, .closeBracket => some { b with expect := .bracket path.reverse }
  | .pair, .equals =>
    match b.stack with
    | [] => some { b with stack := [.line path.reverse], expect := .value }
    | .table entries :: stack =>
      some { b with stack := .member entries path.reverse :: stack, expect := .value }
    | _ => none
  | _, _ => none

/-- What starts a value. -/
def feedValue (b : Builder) (t : Token) : Option Builder :=
  match t with
  | .blank => some b
  | .newline => match b.stack with
    | .arr _ :: _ => some b
    | _ => none
  | .str _ cs => b.complete (.str (String.ofList cs))
  | .word cs => some { b with expect := .scalar cs.reverse }
  | .openBracket => some { b with stack := .arr [] :: b.stack }
  | .openBrace => some { b with stack := .table [] :: b.stack, expect := .member }
  | .closeBracket => b.closeArray
  | _ => none

/-- What follows a value in a container. -/
def feedSeparator (b : Builder) (t : Token) : Option Builder :=
  match t with
  | .blank | .newline => some b
  | .comma => match b.stack with
    | .arr _ :: _ => some { b with expect := .value }
    | .table _ :: _ => some { b with expect := .member }
    | _ => none
  | .closeBracket => b.closeArray
  | .closeBrace => b.closeTable
  | _ => none

/-- The next token, outside a scalar. -/
def feedSettled (b : Builder) (t : Token) : Option Builder :=
  match b.expect, t with
  | .line, .blank => some b
  | .line, .newline => some b
  | .line, .openBracket => some { b with expect := .header }
  | .line, t => b.feedKey .pair [] t
  | .header, .openBracket => some { b with expect := .key .item [] }
  | .header, t => b.feedKey .header [] t
  | .key place path, t => b.feedKey place path t
  | .afterKey place path, t => b.feedAfterKey place path t
  | .bracket path, .closeBracket => b.enter path (b.root.openItem? path)
  | .lineEnd, .blank => some b
  | .lineEnd, .newline => some { b with expect := .line }
  | .value, t => b.feedValue t
  | .separator, t => b.feedSeparator t
  | .member, .blank => some b
  | .member, .newline => some b
  | .member, .closeBrace => b.closeTable
  | .member, t => b.feedKey .pair [] t
  | _, _ => none

/-- A scalar ends before a token. -/
def endScalar (b : Builder) (seen : List Char) (t : Token) : Option Builder := do
  guard (isScalar seen.reverse)
  (← b.complete .scalar).feedSettled t

/-- Whether a token can be the time that belongs to a date before it. -/
def isTimeStart : Token → Bool
  | .word (c :: _) => Text.isDigit c
  | _ => false

/-- The next token. -/
def feed (b : Builder) (t : Token) : Option Builder :=
  match b.expect, t with
  | .scalar seen, .word cs => some { b with expect := .scalar (cs.reverse ++ seen) }
  | .scalar seen, .dot => some { b with expect := .scalar ('.' :: seen) }
  | .scalar seen, .blank => some { b with expect := .scalarOrTime seen }
  | .scalar seen, t => b.endScalar seen t
  | .scalarOrTime seen, t =>
    match t with
    | .word cs =>
      if isDate seen.reverse && isTimeStart t then
        some { b with expect := .scalar (cs.reverse ++ ' ' :: seen) }
      else none
    | t => b.endScalar seen t
  | _, t => b.feedSettled t

/-- The tokens one after the other. -/
def run (b : Builder) : List Token → Option Builder
  | [] => some b
  | t :: rest => match b.feed t with
    | some b => b.run rest
    | none => none

end Builder

/-- The table that the tokens spell; the end of the document ends its last line. -/
def Entries.ofTokens? (tokens : List Token) : Option Entries := do
  let b ← (← Builder.run {} tokens).feed .newline
  match b.expect with
  | .line => some b.root
  | _ => none

/-- The table that a document spells. -/
def parse? (document : String) : Option Entries := do
  Entries.ofTokens? (← tokens? document.toList)

end PodAttach.Toml
