import PodAttach.Cni.Line
import PodAttach.Proofs.Spelling
import PodAttach.Proofs.Texts

/-!
# Framing

A stream is a row of lines, and each line is one message.  What is written
as lines is read as the same lines, whatever text is in the messages.

* `oneLine_chars`: a value is written without a newline, by induction on the value.
* `takeLine_append`: the first line of a stream ends at its first newline.
* `ofLine_lineOf`: a line that was written for an object is read as the document that spells it.
* `readAll_line`: a stream is read line by line.
-/

namespace PodAttach

namespace Json

open Utf8

/-! ## One line for a value -/

/-- The characters are written without a newline. -/
def OneLine (cs : List Char) : Prop :=
  Cni.newline ∉ encodeChars cs

theorem OneLine.append {cs ds : List Char} (hcs : OneLine cs) (hds : OneLine ds) :
    OneLine (cs ++ ds) := by
  unfold OneLine at *
  rw [encodeChars_append, List.mem_append, not_or]
  exact ⟨hcs, hds⟩

theorem OneLine.cons {c : Char} {cs : List Char} (hc : Cni.newline ∉ encodeChar c)
    (hcs : OneLine cs) : OneLine (c :: cs) := by
  have hone : OneLine [c] := by
    unfold OneLine encodeChars
    rwa [List.flatMap_singleton]
  exact hone.append hcs

/-- A newline inside a string is written as an escape. -/
theorem Escaped.oneLine {c : Char} {bytes : Bytes} (hescaped : Escaped c bytes) :
    Cni.newline ∉ bytes := by
  intro hmem
  cases hescaped with
  | @short e hshort hnumber hbytes =>
    simp only [List.mem_cons, List.not_mem_nil, or_false] at hmem
    rcases hmem with hmem | rfl
    · exact absurd hmem (by decide)
    · exact absurd hshort (by decide)
  | @number x y p q hx hy hvalue hlow =>
    have hnone : hexByte? Cni.newline = none := by decide
    simp only [List.mem_cons, List.not_mem_nil, or_false] at hmem
    rcases hmem with hmem | hmem | hmem | hmem | rfl | rfl
    · exact absurd hmem (by decide)
    · exact absurd hmem (by decide)
    · exact absurd hmem (by decide)
    · exact absurd hmem (by decide)
    · cases hnone.symm.trans hx
    · cases hnone.symm.trans hy
  | plain hplain => exact (hplain _ hmem).2.2 (by decide)

theorem oneLine_flatMap (cs : List Char) : OneLine (cs.flatMap escapeChar) := by
  induction cs with
  | nil => exact List.not_mem_nil
  | cons c cs ih =>
    rw [List.flatMap_cons]
    exact OneLine.append (escapeChar_cases c).oneLine ih

theorem oneLine_stringChars (s : String) : OneLine (stringChars s) := by
  have hquote : Cni.newline ∉ encodeChar '"' := by decide
  have hlast : OneLine ['"'] := .cons hquote List.not_mem_nil
  exact .cons hquote ((oneLine_flatMap s.toList).append hlast)

theorem oneLine_word {cs : List Char} (hword : ∀ c ∈ cs, IsWordChar c) : OneLine cs := by
  induction cs with
  | nil => exact List.not_mem_nil
  | cons c cs ih =>
    have hc := hword c (by simp)
    refine .cons ?_ (ih fun d hd => hword d (by simp [hd]))
    rw [hc.1, List.mem_singleton]
    intro hnewline
    have hbyte := hc.2.2
    rw [← hnewline] at hbyte
    exact absurd hbyte (by decide)

mutual

/-- A value without fractions is written on one line. -/
theorem oneLine_chars : ∀ j : Json, j.Whole → OneLine j.chars
  | .null, _ => oneLine_word (by decide)
  | .bool true, _ => oneLine_word (by decide)
  | .bool false, _ => oneLine_word (by decide)
  | .int _, _ => oneLine_word fun _ hc => isWordChar_of_mem_decimalInt hc
  | .str s, _ => oneLine_stringChars s
  | .arr items, hwhole => by
    have hclose : OneLine [']'] := .cons (by decide) List.not_mem_nil
    exact .cons (by decide) ((oneLine_itemsChars items hwhole).append hclose)
  | .obj members, hwhole => by
    have hclose : OneLine ['\x7d'] := .cons (by decide) List.not_mem_nil
    exact .cons (by decide) ((oneLine_membersChars members hwhole).append hclose)

theorem oneLine_itemsChars : ∀ items : List Json, WholeItems items → OneLine (itemsChars items)
  | [], _ => List.not_mem_nil
  | [v], hwhole => oneLine_chars v hwhole.1
  | v :: w :: rest, hwhole => by
    have hrest := oneLine_itemsChars (w :: rest) hwhole.2
    exact (oneLine_chars v hwhole.1).append (.cons (by decide) hrest)

theorem oneLine_membersChars : ∀ members : List (String × Json), WholeMembers members →
    OneLine (membersChars members)
  | [], _ => List.not_mem_nil
  | [(k, v)], hwhole =>
    (oneLine_stringChars k).append (.cons (by decide) (oneLine_chars v hwhole.1))
  | (k, v) :: m :: rest, hwhole => by
    have hvalue : OneLine (':' :: v.chars) := .cons (by decide) (oneLine_chars v hwhole.1)
    have hrest : OneLine (',' :: membersChars (m :: rest)) :=
      .cons (by decide) (oneLine_membersChars (m :: rest) hwhole.2)
    exact ((oneLine_stringChars k).append hvalue).append hrest

end

end Json

namespace Cni

open Utf8

/-! ## The first line -/

theorem takeLineFrom_append (seen rest : Bytes) {body : Bytes} (hbody : newline ∉ body) :
    takeLineFrom seen (body ++ newline :: rest) = (seen.reverse ++ body ++ [newline], rest) := by
  induction body generalizing seen with
  | nil => simp [takeLineFrom]
  | cons b body ih =>
    rw [List.mem_cons, not_or] at hbody
    have hb : (b == newline) = false := beq_eq_false_iff_ne.2 (Ne.symm hbody.1)
    rw [List.cons_append, takeLineFrom, hb]
    simp only [Bool.false_eq_true, if_false]
    rw [ih _ hbody.2]
    simp

/-- The first line ends at the first newline. -/
theorem takeLine_append {body : Bytes} (hbody : newline ∉ body) (rest : Bytes) :
    takeLine (body ++ newline :: rest) = (body ++ [newline], rest) :=
  takeLineFrom_append [] rest hbody

/-- A line that is not ended is taken as a whole. -/
theorem takeLine_of_not_mem {bytes : Bytes} (h : newline ∉ bytes) :
    takeLine bytes = (bytes, []) := by
  have hfrom : ∀ seen, takeLineFrom seen bytes = (seen.reverse ++ bytes, []) := by
    induction bytes with
    | nil => simp [takeLineFrom]
    | cons b bytes ih =>
      rw [List.mem_cons, not_or] at h
      intro seen
      have hb : (b == newline) = false := beq_eq_false_iff_ne.2 (Ne.symm h.1)
      rw [takeLineFrom, hb]
      simp [ih h.2]
  exact hfrom []

/-- What follows the first line of a stream is shorter than the stream. -/
theorem length_takeLineFrom (seen : Bytes) (b : UInt8) (bytes : Bytes) :
    (takeLineFrom seen (b :: bytes)).2.length ≤ bytes.length := by
  induction bytes generalizing seen b with
  | nil =>
    rw [takeLineFrom]
    split <;> simp [takeLineFrom]
  | cons c bytes ih =>
    rw [takeLineFrom]
    split
    · exact Nat.le_refl _
    · exact Nat.le_succ_of_le (ih _ _)

/-! ## Reading lines -/

section

variable {α : Type} {read : Json.Document → Option α}

/-- The message that a document spells. -/
def ofDocument (read : Json.Document → Option α) (d : Json.Document) : Except ProtocolError α :=
  match read d with
  | none => .error .notAMessage
  | some m => .ok m

/-- The line of an object is read as the document that spells the object. -/
theorem ofLine_lineOf {members : List (String × Json)} (hwhole : (Json.obj members).Whole)
    (hsize : (lineOf (.obj members)).length ≤ maxLineSize) :
    ofLine read (lineOf (.obj members)) = ofDocument read (Json.obj members).spelled := by
  have hbytes : lineOf (.obj members) = encodeChars ((Json.obj members).chars ++ ['\n']) := by
    rw [encodeChars_append]
    rfl
  have htrim : Text.trimChars ((Json.obj members).chars ++ ['\n']) = (Json.obj members).chars := by
    refine Text.trimChars_append (List.cons_ne_nil _ _) ?_ ?_ (by simp; decide)
    · rintro c ⟨⟩
      decide
    · intro c hc
      rw [Json.chars, List.getLast?_append] at hc
      cases hc
      decide
  have hchars : decodeChars (lineOf (.obj members)) = .ok ((Json.obj members).chars ++ ['\n']) := by
    rw [hbytes, decodeChars_encodeChars]
  rw [ofLine, hchars]
  dsimp only
  rw [if_neg (Nat.not_lt.2 hsize), htrim, Json.parse?_chars hwhole]
  rfl

/-- One step more than a stream has bytes is never taken. -/
theorem go_succ {fuel : Nat} {stream : Bytes} (hfuel : stream.length ≤ fuel) :
    readAll.go read (fuel + 1) stream = readAll.go read fuel stream := by
  -- By induction on the steps: each line takes at least one byte.
  induction fuel generalizing stream with
  | zero =>
    obtain rfl := List.eq_nil_of_length_eq_zero (Nat.le_zero.1 hfuel)
    rfl
  | succ fuel ih =>
    cases stream with
    | nil => rfl
    | cons b bytes =>
      have hrest : (takeLine (b :: bytes)).2.length ≤ fuel :=
        Nat.le_trans (length_takeLineFrom [] b bytes) (Nat.le_of_succ_le_succ hfuel)
      exact congrArg ((readLine read (b :: bytes)).1 :: ·) (ih hrest)

theorem go_eq_readAll {fuel : Nat} {stream : Bytes} (hfuel : stream.length ≤ fuel) :
    readAll.go read fuel stream = readAll read stream := by
  obtain ⟨more, rfl⟩ := Nat.exists_eq_add_of_le hfuel
  induction more with
  | zero => rfl
  | succ more ih => exact (go_succ (Nat.le_add_right _ _)).trans (ih (Nat.le_add_right _ _))

/-- Reading a stream is reading its first line, and then what follows. -/
theorem readAll_line {body : Bytes} (hbody : newline ∉ body) (rest : Bytes) :
    readAll read (body ++ newline :: rest) =
      ofLine read (body ++ [newline]) :: readAll read rest := by
  obtain ⟨b, bytes, hstream⟩ : ∃ b bytes, body ++ newline :: rest = b :: bytes :=
    List.exists_cons_of_ne_nil (by simp)
  have htake := takeLine_append hbody rest
  have hlength : rest.length ≤ bytes.length := by
    have hsum := congrArg List.length hstream
    simp only [List.length_append, List.length_cons] at hsum
    omega
  rw [hstream] at htake
  have hread : readLine read (b :: bytes) = (ofLine read (body ++ [newline]), rest) := by
    rw [readLine, htake]
    exact List.cons_ne_nil b bytes
  rw [hstream, readAll, List.length_cons, readAll.go, hread]
  · dsimp only
    rw [go_eq_readAll hlength]
  · exact List.cons_ne_nil b bytes

end

end Cni

end PodAttach
