import PodAttach.Text.Digits

/-!
# TOML tokens

Characters are cut into tokens by an automaton that takes them one at a time.
Strings come out of it with their escapes replaced; comments leave no token.
A run of other characters is a word, be it a key, a number or a date.
-/

namespace PodAttach.Toml

/-- A token. -/
inductive Token where
  | dot
  | equals
  | comma
  | openBracket
  | closeBracket
  | openBrace
  | closeBrace
  /-- One blank or tab. -/
  | blank
  | newline
  /-- A string, over several lines or not. -/
  | str (multiline : Bool) (text : List Char)
  | word (cs : List Char)
  deriving DecidableEq, Repr, Inhabited

/-- Which quotes a string stands between. -/
inductive Quote where
  /-- Double quotes: backslashes start escapes. -/
  | basic
  /-- Single quotes: every character stands for itself. -/
  | verbatim
  deriving DecidableEq, Repr, Inhabited

/-- The character of a quote. -/
def Quote.char : Quote → Char
  | .basic => '"'
  | .verbatim => '\''

/-- Where the automaton is; strings hold their characters so far, the last first. -/
inductive Lexer.State where
  /-- Between tokens. -/
  | between
  /-- After a carriage return between tokens. -/
  | return
  /-- In a comment. -/
  | comment
  /-- In a word. -/
  | word (seen : List Char)
  /-- After one quote. -/
  | opened (q : Quote)
  /-- After two quotes. -/
  | openedTwice (q : Quote)
  /-- In a string on one line. -/
  | single (q : Quote) (seen : List Char)
  /-- Right after three quotes; a line break does not count here. -/
  | first (q : Quote)
  /-- After three quotes and a carriage return. -/
  | firstReturn (q : Quote)
  /-- In a string over several lines, after some quotes in a row. -/
  | many (q : Quote) (quotes : Nat) (seen : List Char)
  /-- After a carriage return in such a string. -/
  | manyReturn (q : Quote) (seen : List Char)
  /-- After a backslash. -/
  | escape (multiline : Bool) (seen : List Char)
  /-- In an escape that still needs some hexadecimal digits. -/
  | hex (multiline : Bool) (need : Nat) (value : Nat) (seen : List Char)
  /-- In the white space after a backslash at the end of a line, after a line break or not. -/
  | fold (broken : Bool) (seen : List Char)
  /-- After a carriage return there. -/
  | foldReturn (seen : List Char)
  deriving Repr, Inhabited

/-- The automaton: where it is, and the tokens so far, the last first. -/
structure Lexer where
  state : Lexer.State
  tokens : List Token
  deriving Repr, Inhabited

/-- Whether a character may stand in strings and comments: no control character but the tab. -/
def isPlain (c : Char) : Bool :=
  c == '\t' || (0x20 ≤ c.toNat && c.toNat != 0x7F)

/-- The token of a character that is one by itself. -/
def mark? : Char → Option Token
  | '.' => some .dot
  | '=' => some .equals
  | ',' => some .comma
  | '[' => some .openBracket
  | ']' => some .closeBracket
  | '\x7b' => some .openBrace
  | '\x7d' => some .closeBrace
  | ' ' => some .blank
  | '\t' => some .blank
  | '\n' => some .newline
  | _ => none

/-- What a letter after a backslash stands for. -/
def escaped? : Char → Option Char
  | 'b' => some '\x08'
  | 't' => some '\t'
  | 'n' => some '\n'
  | 'f' => some '\x0c'
  | 'r' => some '\r'
  | 'e' => some '\x1b'
  | '"' => some '"'
  | '\\' => some '\\'
  | _ => none

/-- How many hexadecimal digits follow a letter after a backslash. -/
def hexLength? : Char → Option Nat
  | 'x' => some 2
  | 'u' => some 4
  | 'U' => some 8
  | _ => none

/-- The character of a number that denotes one. -/
def scalar? (n : Nat) : Option Char :=
  if n.isValidChar then some (Char.ofNat n) else none

namespace Lexer

/-- A character between tokens. -/
def feedBetween (tokens : List Token) (c : Char) : Lexer :=
  match mark? c with
  | some t => ⟨.between, t :: tokens⟩
  | none =>
    if c == '\r' then ⟨.return, tokens⟩
    else if c == '#' then ⟨.comment, tokens⟩
    else if c == '"' then ⟨.opened .basic, tokens⟩
    else if c == '\'' then ⟨.opened .verbatim, tokens⟩
    else ⟨.word [c], tokens⟩

/-- Whether a character ends a word. -/
def endsWord (c : Char) : Bool :=
  (mark? c).isSome || c == '\r' || c == '#' || c == '"' || c == '\''

/-- A character in a string on one line. -/
def feedSingle (tokens : List Token) (q : Quote) (seen : List Char) (c : Char) : Option Lexer :=
  if c == q.char then some ⟨.between, .str false seen.reverse :: tokens⟩
  else if c == '\\' && q == .basic then some ⟨.escape false seen, tokens⟩
  else if isPlain c then some ⟨.single q (c :: seen), tokens⟩
  else none

/-- A character in a string over several lines. -/
def feedMany (tokens : List Token) (q : Quote) (seen : List Char) (c : Char) : Option Lexer :=
  if c == q.char then some ⟨.many q 1 seen, tokens⟩
  else if c == '\\' && q == .basic then some ⟨.escape true seen, tokens⟩
  else if c == '\r' then some ⟨.manyReturn q seen, tokens⟩
  else if c == '\n' || isPlain c then some ⟨.many q 0 (c :: seen), tokens⟩
  else none

/-- The characters of a string over several lines that ends with some quotes in a row: the last
three close it, and up to two before them belong to it. -/
def closeMany (q : Quote) (quotes : Nat) (seen : List Char) : Token :=
  .str true (List.replicate (quotes - 3) q.char ++ seen).reverse

/-- The string goes on after an escape. -/
def resume (multiline : Bool) (c : Char) (seen : List Char) : State :=
  if multiline then .many .basic 0 (c :: seen) else .single .basic (c :: seen)

/-- The next character. -/
def feed (l : Lexer) (c : Char) : Option Lexer :=
  match l.state with
  | .between => some (feedBetween l.tokens c)
  | .return => if c == '\n' then some ⟨.between, .newline :: l.tokens⟩ else none
  | .comment =>
    if c == '\n' || c == '\r' then some (feedBetween l.tokens c)
    else if isPlain c then some ⟨.comment, l.tokens⟩
    else none
  | .word seen =>
    if endsWord c then some (feedBetween (.word seen.reverse :: l.tokens) c)
    else some ⟨.word (c :: seen), l.tokens⟩
  | .opened q =>
    if c == q.char then some ⟨.openedTwice q, l.tokens⟩ else feedSingle l.tokens q [] c
  | .openedTwice q =>
    if c == q.char then some ⟨.first q, l.tokens⟩
    else some (feedBetween (.str false [] :: l.tokens) c)
  | .single q seen => feedSingle l.tokens q seen c
  | .first q =>
    if c == '\n' then some ⟨.many q 0 [], l.tokens⟩
    else if c == '\r' then some ⟨.firstReturn q, l.tokens⟩
    else feedMany l.tokens q [] c
  | .firstReturn q => if c == '\n' then some ⟨.many q 0 [], l.tokens⟩ else none
  | .many q 0 seen => feedMany l.tokens q seen c
  | .many q (quotes + 1) seen =>
    if c == q.char then
      if quotes + 2 == 5 then some ⟨.between, closeMany q 5 seen :: l.tokens⟩
      else some ⟨.many q (quotes + 2) seen, l.tokens⟩
    else if 3 ≤ quotes + 1 then some (feedBetween (closeMany q (quotes + 1) seen :: l.tokens) c)
    else feedMany l.tokens q (List.replicate (quotes + 1) q.char ++ seen) c
  | .manyReturn q seen =>
    if c == '\n' then some ⟨.many q 0 ('\n' :: '\r' :: seen), l.tokens⟩ else none
  | .escape multiline seen =>
    match escaped? c, hexLength? c with
    | some d, _ => some ⟨resume multiline d seen, l.tokens⟩
    | none, some need => some ⟨.hex multiline need 0 seen, l.tokens⟩
    | none, none =>
      if !multiline then none
      else if c == ' ' || c == '\t' then some ⟨.fold false seen, l.tokens⟩
      else if c == '\n' then some ⟨.fold true seen, l.tokens⟩
      else if c == '\r' then some ⟨.foldReturn seen, l.tokens⟩
      else none
  | .hex multiline need value seen =>
    match Text.hexValue? c with
    | none => none
    | some d =>
      let value := value * 16 + d
      if need == 1 then
        (scalar? value).map fun d => ⟨resume multiline d seen, l.tokens⟩
      else some ⟨.hex multiline (need - 1) value seen, l.tokens⟩
  | .fold broken seen =>
    if c == ' ' || c == '\t' then some ⟨.fold broken seen, l.tokens⟩
    else if c == '\n' then some ⟨.fold true seen, l.tokens⟩
    else if c == '\r' then some ⟨.foldReturn seen, l.tokens⟩
    else if broken then feedMany l.tokens .basic seen c
    else none
  | .foldReturn seen => if c == '\n' then some ⟨.fold true seen, l.tokens⟩ else none

/-- The characters one after the other. -/
def run (l : Lexer) : List Char → Option Lexer
  | [] => some l
  | c :: rest => match l.feed c with
    | some l => l.run rest
    | none => none

/-- The tokens, if no string is open at the end. -/
def finish? (l : Lexer) : Option (List Token) :=
  match l.state with
  | .between | .comment => some l.tokens.reverse
  | .word seen => some (.word seen.reverse :: l.tokens).reverse
  | .openedTwice _ => some (.str false [] :: l.tokens).reverse
  | .many q quotes seen =>
    if 3 ≤ quotes then some (closeMany q quotes seen :: l.tokens).reverse else none
  | _ => none

end Lexer

/-- The byte order mark, which may stand before everything else. -/
def byteOrderMark : Char := Char.ofNat 0xFEFF

/-- The characters without a byte order mark before them. -/
def skipMark : List Char → List Char
  | c :: rest => if c == byteOrderMark then rest else c :: rest
  | [] => []

/-- The tokens of a document. -/
def tokens? (cs : List Char) : Option (List Token) :=
  match (Lexer.mk .between []).run (skipMark cs) with
  | some l => l.finish?
  | none => none

end PodAttach.Toml
