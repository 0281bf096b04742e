import PodAttach.Proofs.Messages

/-!
# Messages that are cut off

The last line of a stream need not be ended, so a message that breaks off is told from a whole one
by its text alone.  The text of an object is no document before its last brace.

* `Builder.Inside`: an object has been opened, so a word or a number does not complete the document.
* `Lexer.tokens_suffix_of_run`: the automaton keeps the tokens that it has.
* `Lexer.finish?_of_close`: a closing brace outside of a string adds a token.
* `Document.parse?_of_cut`: from these, by where the automaton stands at the cut.
* `messages_never_cut_short`: requests and responses that are cut off are errors.
-/

namespace PodAttach

namespace Json

/-! ## Documents that are not complete -/

/-- If no container is open, then the document is complete. -/
def Builder.Inside (b : Builder) : Prop :=
  b.stack = [] → ∃ d, b.expect = .done d

namespace Builder

theorem complete_cons {d : Document} {frame : Frame} {stack : List Frame} {b : Builder}
    (h : complete d (frame :: stack) = some b) : b.expect = .separator ∧ b.stack ≠ [] := by
  cases frame with
  | arr items =>
    obtain rfl := Option.some.inj h
    exact ⟨rfl, List.cons_ne_nil _ _⟩
  | obj members => cases h
  | member members key =>
    obtain rfl := Option.some.inj h
    exact ⟨rfl, List.cons_ne_nil _ _⟩

theorem inside_of_complete {d : Document} {stack : List Frame} {b : Builder}
    (h : complete d stack = some b) : b.Inside := by
  intro hempty
  cases stack with
  | nil =>
    obtain rfl := Option.some.inj h
    exact ⟨d, rfl⟩
  | cons frame stack => exact absurd hempty (complete_cons h).2

theorem inside_of_stack {b : Builder} {frame : Frame} {stack : List Frame}
    (h : b.stack = frame :: stack) : b.Inside := by
  intro hempty
  cases h.symm.trans hempty

/-- Each token leaves a container open or completes the document. -/
theorem Inside.feed {b b' : Builder} {t : Token} (hb : b.Inside) (h : b.feed t = some b') :
    b'.Inside := by
  obtain ⟨stack, expect⟩ := b
  unfold Builder.feed at h
  dsimp only at h
  split at h
  -- a value without parts
  case h_1 | h_2 | h_3 | h_4 => exact inside_of_complete h
  -- a container is opened
  case h_5 | h_6 =>
    obtain rfl := Option.some.inj h
    exact inside_of_stack rfl
  -- the one on top is closed
  case h_7 | h_9 | h_12 | h_13 =>
    split at h
    · exact inside_of_complete h
    · cases h
  -- a key belongs to the object on top, which there is
  case h_8 =>
    obtain rfl := Option.some.inj h
    intro hempty
    obtain ⟨d, hd⟩ := hb hempty
    cases hd
  -- a colon or a comma leaves it there
  case h_10 =>
    split at h
    · obtain rfl := Option.some.inj h
      exact inside_of_stack rfl
    · cases h
  case h_11 =>
    split at h
    · obtain rfl := Option.some.inj h
      exact inside_of_stack rfl
    · obtain rfl := Option.some.inj h
      exact inside_of_stack rfl
    · cases h
  case h_14 => cases h

theorem Inside.run {b b' : Builder} {ts : List Token} (hb : b.Inside) (h : b.run ts = some b') :
    b'.Inside := by
  induction ts generalizing b with
  | nil =>
    obtain rfl := Option.some.inj h
    exact hb
  | cons t ts ih =>
    rw [← List.singleton_append, Builder.run_append, Builder.run_singleton] at h
    obtain ⟨c, hfeed, hrest⟩ := Option.bind_eq_some_iff.1 h
    exact ih (hb.feed hfeed) hrest

/-- A document that is complete takes no further token. -/
theorem feed_done (stack : List Frame) (d : Document) (t : Token) :
    (Builder.mk stack (.done d)).feed t = none := by
  cases t <;> rfl

end Builder

/-- A word makes a value of its own. -/
theorem feed_wordToken {cs : List Char} {t : Token} (ht : wordToken? cs = some t) {b b' : Builder}
    (h : b.feed t = some b') : ∃ d orClose, b.expect = .value orClose ∧
      Builder.complete d b.stack = some b' := by
  have hword : t = .null ∨ (∃ v, t = .bool v) ∨ ∃ n, t = .num n := by
    unfold wordToken? at ht
    split at ht
    · exact .inl (Option.some.inj ht).symm
    split at ht
    · exact .inr (.inl ⟨true, (Option.some.inj ht).symm⟩)
    split at ht
    · exact .inr (.inl ⟨false, (Option.some.inj ht).symm⟩)
    · obtain ⟨n, -, hn⟩ := Option.map_eq_some_iff.1 ht
      exact .inr (.inr ⟨n, hn.symm⟩)
  obtain ⟨stack, expect⟩ := b
  cases expect with
  | value orClose =>
    rcases hword with rfl | ⟨v, rfl⟩ | ⟨n, rfl⟩
    · exact ⟨.null, orClose, rfl, h⟩
    · exact ⟨.bool v, orClose, rfl, h⟩
    · exact ⟨.num n, orClose, rfl, h⟩
  | _ => rcases hword with rfl | ⟨v, rfl⟩ | ⟨n, rfl⟩ <;> cases h

/-- Inside an object a word does not complete the document. -/
theorem Builder.Inside.ne_done {b b' : Builder} (hb : b.Inside) {cs : List Char} {t : Token}
    (ht : wordToken? cs = some t) (h : b.feed t = some b') (d : Document) :
    b'.expect ≠ .done d := by
  obtain ⟨d', orClose, hexpect, hcomplete⟩ := feed_wordToken ht h
  intro hdone
  cases hstack : b.stack with
  | nil =>
    obtain ⟨d'', hd⟩ := hb hstack
    cases hexpect.symm.trans hd
  | cons frame stack =>
    rw [hstack] at hcomplete
    cases (Builder.complete_cons hcomplete).1.symm.trans hdone

/-! ## The automaton at the cut -/

namespace Lexer

theorem run_singleton (l : Lexer) (b : UInt8) : l.run [b] = l.feed b := by
  rw [Lexer.run]
  cases l.feed b <;> rfl

theorem tokens_feedBlank {ts : List Token} {b : UInt8} {l : Lexer} (h : feedBlank ts b = some l) :
    ts <:+ l.tokens := by
  unfold feedBlank at h
  repeat' split at h
  case isFalse => cases h
  all_goals
    obtain rfl := Option.some.inj h
    simp

theorem endWord?_eq_some {seen : List Char} {ts us : List Token}
    (h : endWord? seen ts = some us) : ∃ t, wordToken? seen.reverse = some t ∧ us = t :: ts := by
  obtain ⟨t, ht, hus⟩ := Option.map_eq_some_iff.1 h
  exact ⟨t, ht, hus.symm⟩

/-- A string goes on until its quote. -/
theorem feed_text {seen : Bytes} {escape : Escape} {ts : List Token} {b : UInt8} {l : Lexer}
    (h : (Lexer.mk (.text seen escape) ts).feed b = some l) :
    (∃ seen escape, l = ⟨.text seen escape, ts⟩) ∨
      b = 0x22 ∧ l = ⟨.blank, .str seen.reverse :: ts⟩ := by
  unfold Lexer.feed at h
  cases escape with
  | plain =>
    dsimp only at h
    split at h
    · next hquote => exact .inr ⟨eq_of_beq hquote, (Option.some.inj h).symm⟩
    split at h
    · exact .inl ⟨_, _, (Option.some.inj h).symm⟩
    split at h
    · cases h
    · exact .inl ⟨_, _, (Option.some.inj h).symm⟩
  | slash =>
    dsimp only at h
    split at h
    · exact .inl ⟨_, _, (Option.some.inj h).symm⟩
    split at h
    · exact .inl ⟨_, _, (Option.some.inj h).symm⟩
    · cases h
  | hex missing =>
    dsimp only at h
    split at h
    · exact .inl ⟨_, _, (Option.some.inj h).symm⟩
    · cases h

/-- The automaton keeps the tokens that it has. -/
theorem tokens_suffix_of_feed {l l' : Lexer} {b : UInt8} (h : l.feed b = some l') :
    l.tokens <:+ l'.tokens := by
  obtain ⟨state, tokens⟩ := l
  cases state with
  | blank => exact tokens_feedBlank h
  | word seen =>
    unfold Lexer.feed at h
    dsimp only at h
    split at h
    · obtain rfl := Option.some.inj h
      exact List.suffix_refl tokens
    · split at h
      · next us hend =>
        obtain ⟨t, -, rfl⟩ := endWord?_eq_some hend
        exact (List.suffix_cons t tokens).trans (tokens_feedBlank h)
      · cases h
  | text seen escape =>
    rcases feed_text h with ⟨seen', escape', rfl⟩ | ⟨-, rfl⟩
    · exact List.suffix_refl tokens
    · exact List.suffix_cons _ tokens

theorem tokens_suffix_of_run {l l' : Lexer} {bs : Bytes} (h : l.run bs = some l') :
    l.tokens <:+ l'.tokens := by
  induction bs generalizing l with
  | nil =>
    obtain rfl := Option.some.inj h
    exact List.suffix_refl _
  | cons b bs ih =>
    rw [← List.singleton_append, Lexer.run_append, run_singleton] at h
    obtain ⟨l₁, hfeed, hrest⟩ := Option.bind_eq_some_iff.1 h
    exact (tokens_suffix_of_feed hfeed).trans (ih hrest)

/-- A closing brace outside of a string is a token. -/
theorem finish?_of_close {l l' : Lexer} {ts : List Token} (h : l.feed 0x7D = some l')
    (hts : l'.finish? = some ts) : ∃ new, new ≠ [] ∧ ts = l.tokens.reverse ++ new := by
  obtain ⟨state, tokens⟩ := l
  cases state with
  | blank =>
    obtain rfl := Option.some.inj h
    obtain rfl := Option.some.inj hts
    exact ⟨[.closeObject], by simp, by simp⟩
  | word seen =>
    have hbrace : isWordByte 0x7D = false := by decide
    simp only [Lexer.feed, hbrace, Bool.false_eq_true, if_false] at h
    cases hend : endWord? seen tokens with
    | none =>
      rw [hend] at h
      cases h
    | some us =>
      rw [hend] at h
      obtain ⟨t, -, rfl⟩ := endWord?_eq_some hend
      obtain rfl := Option.some.inj h
      obtain rfl := Option.some.inj hts
      exact ⟨[t, .closeObject], by simp, by simp⟩
  | text seen escape =>
    rcases feed_text h with ⟨seen', escape', rfl⟩ | ⟨hquote, -⟩
    · cases hts
    · exact absurd hquote (by decide)

end Lexer

/-! ## The text of an object -/

theorem Document.ofTokens?_eq_some_iff {ts : List Token} {d : Document} :
    ofTokens? ts = some d ↔
      ∃ stack, (Builder.mk [] (.value false)).run ts = some ⟨stack, .done d⟩ := by
  unfold ofTokens?
  split
  · next stack d' hrun => simp [hrun]
  · next hrun =>
    simp only [reduceCtorEq, false_iff, not_exists]
    exact fun stack => hrun stack d

theorem Document.parse?_eq_some {bytes : Bytes} {d : Document} (h : parse? bytes = some d) :
    ∃ l ts stack, (Lexer.mk .blank []).run bytes = some l ∧ l.finish? = some ts ∧
      (Builder.mk [] (.value false)).run ts = some ⟨stack, .done d⟩ := by
  unfold parse? tokens? at h
  cases hrun : (Lexer.mk .blank []).run bytes with
  | none =>
    rw [hrun] at h
    cases h
  | some l =>
    rw [hrun] at h
    dsimp only at h
    cases hts : l.finish? with
    | none =>
      rw [hts] at h
      cases h
    | some ts =>
      rw [hts] at h
      obtain ⟨stack, hstack⟩ := ofTokens?_eq_some_iff.1 h
      exact ⟨l, ts, stack, rfl, hts, hstack⟩

theorem encodeChars_obj (members : List (String × Json)) :
    Utf8.encodeChars (Json.obj members).chars =
      0x7B :: Utf8.encodeChars (membersChars members) ++ [0x7D] := by
  have hbraces : (Json.obj members).chars =
      ['\x7b'] ++ membersChars members ++ ['\x7d'] := rfl
  rw [hbraces, Utf8.encodeChars_append, Utf8.encodeChars_append]
  rfl

/-- What starts with an opening brace is no document if it stops before the last brace. -/
theorem Document.parse?_of_cut {p q : Bytes} {d : Document}
    (hwhole : parse? (0x7B :: p ++ (q ++ [0x7D])) = some d) : parse? (0x7B :: p) = none := by
  cases hcut : parse? (0x7B :: p) with
  | none => rfl
  | some d' =>
    exfalso
    obtain ⟨last, ts, stack, hrun, hfinish, hbuild⟩ := parse?_eq_some hwhole
    obtain ⟨l, us, stack', hrun', hfinish', hbuild'⟩ := parse?_eq_some hcut
    rw [Lexer.run_append, hrun', Option.bind_some, Lexer.run_append] at hrun
    obtain ⟨l₁, hl₁, hclose⟩ := Option.bind_eq_some_iff.1 hrun
    rw [Lexer.run_singleton] at hclose
    -- the tokens of the whole are those at the cut and some more
    obtain ⟨new, hnew, hts⟩ := Lexer.finish?_of_close hclose hfinish
    obtain ⟨between, hbetween⟩ := Lexer.tokens_suffix_of_run hl₁
    obtain ⟨t, more, hmore⟩ : ∃ t more, between.reverse ++ new = t :: more :=
      List.exists_cons_of_ne_nil (by simp [hnew])
    have hall : ts = l.tokens.reverse ++ t :: more := by
      rw [hts, ← hbetween, ← hmore, List.reverse_append, List.append_assoc]
    rw [hall, Builder.run_append] at hbuild
    obtain ⟨b, hb, hrest⟩ := Option.bind_eq_some_iff.1 hbuild
    -- the first of them opens the object
    have hopen : (Lexer.mk .blank [.openObject]).run p = some l := hrun'
    obtain ⟨opened, hopened⟩ := Lexer.tokens_suffix_of_run hopen
    have hinside : b.Inside := by
      rw [← hopened, List.reverse_append] at hb
      have hfirst : (Builder.mk [.obj []] (.key true)).run opened.reverse = some b := hb
      exact (Builder.inside_of_stack rfl).run hfirst
    obtain ⟨state, tokens⟩ := l
    cases state with
    | blank =>
      obtain rfl := Option.some.inj hfinish'
      rw [hb] at hbuild'
      obtain rfl := Option.some.inj hbuild'
      rw [Builder.run, Builder.feed_done] at hrest
      cases hrest
    | word seen =>
      obtain ⟨vs, hend, rfl⟩ := Option.map_eq_some_iff.1 hfinish'
      obtain ⟨w, hw, rfl⟩ := Lexer.endWord?_eq_some hend
      rw [List.reverse_cons, Builder.run_append, hb, Option.bind_some, Builder.run_singleton]
        at hbuild'
      exact hinside.ne_done hw hbuild' d' rfl
    | text seen escape => cases hfinish'

/-- Nothing in front of the last brace of an object is a document. -/
theorem Document.parse?_of_prefix {p body : Bytes} {d : Document}
    (hwhole : parse? (0x7B :: body ++ [0x7D]) = some d) (hp : p <+: 0x7B :: body) :
    parse? p = none := by
  cases p with
  | nil => rfl
  | cons b p =>
    obtain ⟨rfl, q, rfl⟩ := List.cons_prefix_cons.1 hp
    rw [← List.cons_append, List.append_assoc] at hwhole
    exact parse?_of_cut hwhole

end Json

namespace Cni

open Utf8

/-! ## Streams that break off -/

/-- Nothing is trimmed off in front of a brace. -/
theorem encodeChars_trimChars {body : Bytes} {cs : List Char}
    (h : encodeChars cs <+: 0x7B :: body) : encodeChars (Text.trimChars cs) <+: encodeChars cs := by
  have htrim : Text.trimChars cs <+: cs := by
    cases cs with
    | nil => exact List.prefix_refl []
    | cons c cs =>
      have hc : Text.isBlank c = false := by
        obtain ⟨b, bs, hbytes⟩ : ∃ b bs, encodeChar c = b :: bs := by
          rcases encodeChar_cases c with ⟨-, hc⟩ | ⟨-, -, hc⟩ | ⟨-, -, hc⟩ | ⟨-, hc⟩ <;>
            exact ⟨_, _, hc⟩
        rw [encodeChars, List.flatMap_cons, hbytes, List.cons_append, List.cons_prefix_cons] at h
        obtain ⟨rfl, -⟩ := h
        have hbrace : (0x7B : UInt8) ∈ encodeChar c := by simp [hbytes]
        rcases Json.mem_encodeChar hbrace with ⟨hself, -⟩ | hhigh
        · simp [Text.isBlank, ← hself]
        · exact absurd hhigh (by decide)
      rw [Text.trimChars, List.dropWhile_cons_of_neg (by simp [hc])]
      have hsuffix := List.dropWhile_suffix Text.isBlank (l := (c :: cs).reverse)
      rwa [← List.reverse_prefix, List.reverse_reverse] at hsuffix
  obtain ⟨ws, hws⟩ := htrim
  exact ⟨encodeChars ws, by rw [← encodeChars_append, hws]⟩

variable {α : Type} {read : Json.Document → Option α}

/-- A line that breaks off before the last brace is an error. -/
theorem ofLine_of_prefix {p body : Bytes} {d : Json.Document}
    (hwhole : Json.Document.parse? (0x7B :: body ++ [0x7D]) = some d) (hp : p <+: 0x7B :: body) :
    ∃ e, ofLine read p = .error e ∧ e ≠ .closed := by
  unfold ofLine
  cases hdecode : decodeChars p with
  | error fault => exact ⟨_, rfl, by simp⟩
  | ok cs =>
    obtain rfl := encodeChars_of_decodeChars hdecode
    have htrim : encodeChars (Text.trimChars cs) <+: 0x7B :: body :=
      (encodeChars_trimChars hp).trans hp
    dsimp only
    split
    · exact ⟨_, rfl, by simp [ProtocolError.tooLong]⟩
    · rw [Json.Document.parse?_of_prefix hwhole htrim]
      exact ⟨_, rfl, by simp [ProtocolError.notAMessage]⟩

theorem readLine_of_prefix {p body : Bytes} {d : Json.Document}
    (hwhole : Json.Document.parse? (0x7B :: body ++ [0x7D]) = some d)
    (hbody : newline ∉ 0x7B :: body) (hp : p <+: 0x7B :: body) :
    ∃ e, readLine read p = (.error e, []) ∧ (e = .closed ↔ p = []) := by
  cases p with
  | nil => exact ⟨.closed, rfl, by simp⟩
  | cons b p =>
    have hline : newline ∉ b :: p := fun hmem => hbody (hp.subset hmem)
    have hread : readLine read (b :: p) = (ofLine read (b :: p), []) := by
      rw [readLine, takeLine_of_not_mem hline]
      exact List.cons_ne_nil b p
    obtain ⟨e, herror, hopen⟩ : ∃ e, ofLine read (b :: p) = .error e ∧ e ≠ .closed :=
      ofLine_of_prefix hwhole hp
    exact ⟨e, by rw [hread, herror], by simp [hopen]⟩

namespace Format

/-- What is left of a message that is cut off is an error, and nothing more can be read then. -/
def RefusesCut (f : Format α) : Prop :=
  ∀ m body, f.write m = .ok (body ++ [newline]) → ∀ p, p <+: body → p ≠ body →
    ∃ e, readLine f.read p = (.error e, []) ∧ (e = .closed ↔ p = [])

theorem Spelled.refusesCut {f : Format α} (hf : f.Spelled) : f.RefusesCut := by
  intro m body hwrite p hp hne
  have htext : IsText (f.payload m) := by
    rcases hf.write_cases m with htext | ⟨-, fault, herror⟩
    · exact htext
    · cases hwrite.symm.trans herror
  obtain ⟨members, hwritten, hwhole, -⟩ := hf.written m htext
  have hsame : lineOf (.obj members) = body ++ [newline] :=
    Except.ok.inj (hwritten.symm.trans hwrite)
  obtain rfl := List.append_cancel_right hsame
  have hparse := Json.parse?_chars hwhole
  have hnewline : newline ∉ encodeChars (Json.obj members).chars := Json.oneLine_chars _ hwhole
  rw [Json.encodeChars_obj] at hp hne hparse hnewline
  rcases List.prefix_concat_iff.1 hp with hall | hcut
  · exact absurd hall hne
  · exact readLine_of_prefix hparse (fun hmem => hnewline (List.mem_append_left _ hmem)) hcut

end Format

/-- Requests and responses that break off are errors, wherever they do. -/
theorem messages_never_cut_short : Request.format.RefusesCut ∧ Response.format.RefusesCut :=
  ⟨Request.format_spelled.refusesCut, Response.format_spelled.refusesCut⟩

/-- A request with escapes and a character of four bytes is refused wherever it breaks off. -/
theorem unruly_never_cut_short :
    ∃ body, Sample.unruly.writeLine = .ok (body ++ [newline]) ∧ body.length = 151 ∧
      ∀ n, 0 < n → n < 151 →
        ∃ e, readLine Request.ofDocument? (body.take n) = (.error e, []) ∧ e ≠ .closed := by
  have htext : IsText (Request.format.payload Sample.unruly) := ⟨_, rfl⟩
  obtain ⟨body, hwrite, -⟩ := Request.format_spelled.line htext
  have hlength : body.length = 151 := by
    simpa using Sample.length_unruly hwrite
  refine ⟨body, hwrite, hlength, ?_⟩
  intro n hpos hlt
  have hne : body.take n ≠ body := by
    intro hsame
    have hcount := congrArg List.length hsame
    rw [List.length_take] at hcount
    omega
  obtain ⟨e, hread, hclosed⟩ :=
    messages_never_cut_short.1 Sample.unruly body hwrite (body.take n) (List.take_prefix n body) hne
  refine ⟨e, hread, ?_⟩
  intro hend
  have hempty := congrArg List.length (hclosed.1 hend)
  rw [List.length_take, List.length_nil] at hempty
  omega

end Cni

end PodAttach
