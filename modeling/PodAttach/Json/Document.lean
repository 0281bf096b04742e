import PodAttach.Json.Token

/-!
# JSON documents

A document as it was written: a tree whose strings and numbers keep their
spelling.  The tree is built from the tokens by a machine with a stack of
the containers still open, so nesting has no bound.
-/

namespace PodAttach.Json

/-- A JSON document with its spelling. -/
inductive Document where
  | null
  | bool (b : Bool)
  | num (n : Numeral)
  | str (raw : Bytes)
  | arr (items : List Document)
  | obj (members : List (Bytes × Document))
  deriving Repr, Inhabited

/-- A container that is still open; what it holds so far, the last first. -/
inductive Frame where
  | arr (items : List Document)
  | obj (members : List (Bytes × Document))
  /-- An object whose member `key` has its value to come. -/
  | member (members : List (Bytes × Document)) (key : Bytes)
  deriving Repr, Inhabited

/-- What may come next. -/
inductive Expect where
  /-- A value; or the end of the array just opened. -/
  | value (orClose : Bool)
  /-- A key; or the end of the object just opened. -/
  | key (orClose : Bool)
  /-- The colon after a key. -/
  | colon (key : Bytes)
  /-- A comma, or the end of the container on top. -/
  | separator
  /-- Nothing: the document is complete. -/
  | done (d : Document)
  deriving Repr, Inhabited

/-- The machine that builds a document. -/
structure Builder where
  stack : List Frame
  expect : Expect
  deriving Repr, Inhabited

namespace Builder

/-- A value is complete: it goes into the container on top. -/
def complete (d : Document) : List Frame → Option Builder
  | [] => some ⟨[], .done d⟩
  | .arr items :: stack => some ⟨.arr (d :: items) :: stack, .separator⟩
  | .member members key :: stack => some ⟨.obj ((key, d) :: members) :: stack, .separator⟩
  | .obj _ :: _ => none

/-- The next token. -/
def feed (b : Builder) (t : Token) : Option Builder :=
  match b.expect, t with
  | .value _, .null => complete .null b.stack
  | .value _, .bool v => complete (.bool v) b.stack
  | .value _, .num n => complete (.num n) b.stack
  | .value _, .str raw => complete (.str raw) b.stack
  | .value _, .openArray => some ⟨.arr [] :: b.stack, .value true⟩
  | .value _, .openObject => some ⟨.obj [] :: b.stack, .key true⟩
  | .value true, .closeArray => match b.stack with
    | .arr items :: stack => complete (.arr items.reverse) stack
    | _ => none
  | .key _, .str raw => some ⟨b.stack, .colon raw⟩
  | .key true, .closeObject => match b.stack with
    | .obj members :: stack => complete (.obj members.reverse) stack
    | _ => none
  | .colon key, .colon => match b.stack with
    | .obj members :: stack => some ⟨.member members key :: stack, .value false⟩
    | _ => none
  | .separator, .comma => match b.stack with
    | .arr items :: stack => some ⟨.arr items :: stack, .value false⟩
    | .obj members :: stack => some ⟨.obj members :: stack, .key false⟩
    | _ => none
  | .separator, .closeArray => match b.stack with
    | .arr items :: stack => complete (.arr items.reverse) stack
    | _ => none
  | .separator, .closeObject => match b.stack with
    | .obj members :: stack => complete (.obj members.reverse) stack
    | _ => none
  | _, _ => none

/-- The tokens one after the other. -/
def run (b : Builder) : List Token → Option Builder
  | [] => some b
  | t :: rest => match b.feed t with
    | some b => b.run rest
    | none => none

end Builder

/-- The document that the tokens spell. -/
def Document.ofTokens? (tokens : List Token) : Option Document :=
  match (Builder.mk [] (.value false)).run tokens with
  | some ⟨_, .done d⟩ => some d
  | _ => none

/-- The document that the bytes spell, with nothing but white space around it. -/
def Document.parse? (bytes : Bytes) : Option Document :=
  match tokens? bytes with
  | some tokens => Document.ofTokens? tokens
  | none => none

end PodAttach.Json
