/-!
# TOML values

A document is a table of values.  How a table came about is kept with it: it
says which later lines may still add to it.
-/

namespace PodAttach.Toml

/-- How a table came about. -/
inductive Made where
  /-- Between braces; nothing can be added. -/
  | braces
  /-- By a header of its own. -/
  | header
  /-- By the header of a table inside it. -/
  | implied
  /-- By a key of several parts. -/
  | dotted
  deriving DecidableEq, Repr, Inhabited

/-- A value. -/
inductive Value where
  | str (text : String)
  /-- A truth value, a number, a date or a time. -/
  | scalar
  /-- An array; headers may add tables to it, or not. -/
  | arr (growing : Bool) (items : List Value)
  | table (made : Made) (entries : List (String × Value))
  deriving Repr, Inhabited

/-- What a table holds. -/
abbrev Entries : Type :=
  List (String × Value)

namespace Entries

/-- Puts a value in the place of the one of its key, or after all others. -/
def set (key : String) (v : Value) : Entries → Entries
  | [] => [(key, v)]
  | e :: rest => if e.1 = key then (key, v) :: rest else e :: set key v rest

/-- Adds a value under a key that is not there yet. -/
def add? (key : String) (v : Value) (es : Entries) : Option Entries :=
  match es.lookup key with
  | some _ => none
  | none => some (es ++ [(key, v)])

/-- Whether a table may be entered, by a key of several parts or by a header. -/
def isOpen (dotted : Bool) : Made → Bool
  | .braces => false
  | .header => !dotted
  | .implied | .dotted => true

/-- Changes the table at a path; tables on the way are made. -/
def at? (dotted : Bool) (f : Entries → Option Entries) :
    List String → Entries → Option Entries
  | [], es => f es
  | key :: path, es =>
    match es.lookup key with
    | none => do
      let inner ← at? dotted f path []
      some (es ++ [(key, .table (if dotted then .dotted else .implied) inner)])
    | some (.table made inner) =>
      if isOpen dotted made then do
        let inner ← at? dotted f path inner
        some (es.set key (.table made inner))
      else none
    | some (.arr true items) =>
      match dotted, items.getLast? with
      | false, some (.table made inner) => do
        let inner ← at? dotted f path inner
        some (es.set key (.arr true (items.dropLast ++ [.table made inner])))
      | _, _ => none
    | some _ => none

/-- Adds a value under a key of one or more parts. -/
def addAt? (path : List String) (v : Value) (es : Entries) : Option Entries :=
  match path.getLast? with
  | some key => es.at? true (add? key v) path.dropLast
  | none => none

/-- The header of a table. -/
def openTable? (path : List String) (es : Entries) : Option Entries :=
  match path.getLast? with
  | none => none
  | some key => es.at? false (fun inner =>
      match inner.lookup key with
      | none => some (inner ++ [(key, .table .header [])])
      | some (.table .implied entries) => some (inner.set key (.table .header entries))
      | some _ => none) path.dropLast

/-- The header of one more table of an array. -/
def openItem? (path : List String) (es : Entries) : Option Entries :=
  match path.getLast? with
  | none => none
  | some key => es.at? false (fun inner =>
      match inner.lookup key with
      | none => some (inner ++ [(key, .arr true [.table .header []])])
      | some (.arr true items) =>
        some (inner.set key (.arr true (items ++ [.table .header []])))
      | some _ => none) path.dropLast

end Entries

end PodAttach.Toml
