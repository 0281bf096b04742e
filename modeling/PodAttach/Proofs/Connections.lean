import PodAttach.Agent.Listener
import PodAttach.Proofs.Alone
import PodAttach.Proofs.Messages

/-!
# What a connection is answered

A connection is answered by one line that spells a response, if its first
line can be read at all: if it is a text and not too long.  Then the answer
is the response to the request that the line spells, or says that it spells
none.  A first line that cannot be read is not answered.

* `handle_isText`: the result of a request is a text, so its response can be written.
* `spells_responseBytes`: such a response is written as one line, which spells it.
* `ofLine_cases`: what reading a line can come to.
* `connection_answered_iff`: when a connection is answered, and by what.
-/

namespace PodAttach

namespace Cni

/-- The line is a text that is not too long. -/
def Readable (line : Bytes) : Prop :=
  IsText line ∧ line.length ≤ maxLineSize

/-- The bytes are one line that spells a response. -/
def Spells (bytes : Bytes) (response : Response) : Prop :=
  ∃ body, bytes = body ++ [newline] ∧ newline ∉ body ∧
    (Json.Document.parse? body).bind Response.ofDocument? = some response

theorem not_spells_nil (response : Response) : ¬ Spells [] response := by
  rintro ⟨body, hbytes, -⟩
  exact List.append_ne_nil_of_right_ne_nil body (List.cons_ne_nil _ _) hbytes.symm

/-- A response whose result is a text is written as a line that spells it. -/
theorem Response.spells_of_isText {response : Response} (htext : IsText response.result) :
    ∃ line, response.writeLine = .ok line ∧ Spells line response := by
  obtain ⟨members, hwrite, hwhole, hread⟩ := Response.format_spelled.written response htext
  refine ⟨_, hwrite, _, rfl, Json.oneLine_chars _ hwhole, ?_⟩
  rw [Json.parse?_chars hwhole]
  exact hread

section

variable {α : Type} (read : Json.Document → Option α)

/-- A line that cannot be read is a failure of the connection; one that can be read spells a
message or does not. -/
theorem ofLine_cases (line : Bytes) :
    (¬ Readable line ∧ ∃ reason, ofLine read line = .error (.io reason)) ∨
      Readable line ∧ (ofLine read line = .error .notAMessage ∨ ∃ m, ofLine read line = .ok m) := by
  unfold ofLine
  cases hchars : Utf8.decodeChars line with
  | error fault =>
    refine .inl ⟨?_, _, rfl⟩
    rintro ⟨⟨s, rfl⟩, -⟩
    cases (Utf8.decodeChars_encodeChars s.toList).symm.trans hchars
  | ok cs =>
    have htext : IsText line := by
      rw [← Utf8.encodeChars_of_decodeChars hchars]
      exact isText_encodeChars cs
    dsimp only
    split
    next hlong => exact .inl ⟨fun hreadable => Nat.not_le.2 hlong hreadable.2, _, rfl⟩
    next hshort =>
      refine .inr ⟨⟨htext, Nat.not_lt.1 hshort⟩, ?_⟩
      cases Json.Document.parse? (Utf8.encodeChars (Text.trimChars cs)) with
      | none => exact .inl rfl
      | some d =>
        dsimp only
        cases read d with
        | none => exact .inl rfl
        | some m => exact .inr ⟨m, rfl⟩

theorem readLine_of_ne_nil {stream : Bytes} (hstream : stream ≠ []) :
    (readLine read stream).1 = ofLine read (takeLine stream).1 := by
  obtain ⟨b, bytes, rfl⟩ := List.exists_cons_of_ne_nil hstream
  rfl

end

end Cni

namespace Agent

open Activity

/-! ## Results are texts -/

/-- The result, if there is one, is a text. -/
def TextResult (outcome : Except Cni.CallError Bytes) : Prop :=
  ∀ bytes, outcome = .ok bytes → Cni.IsText bytes

theorem textResult_error (e : Cni.CallError) : TextResult (.error e) := by
  rintro bytes ⟨⟩

theorem textResult_nil : TextResult (.ok []) := by
  rintro bytes ⟨⟩
  exact ⟨"", rfl⟩

theorem textResult_toBytes (r : Cni.Result) : TextResult (.ok r.toBytes) := by
  rintro bytes ⟨⟩
  exact Cni.isText_encodeChars _

section

variable {σ : Type} {s : σ}

/-- Whatever the computation is answered, its result is a text. -/
abbrev EndsInText (p : Activity (Except Cni.CallError Bytes)) (s : σ) : Prop :=
  p.Ensures .free s fun outcome _ => TextResult outcome

theorem endsInText_bind {α : Type} {p : Activity α} {f : α → Activity (Except Cni.CallError Bytes)}
    (hf : ∀ a (s' : σ), EndsInText (f a) s') : EndsInText (p >>= f) s :=
  (Proc.ensures_free p s).bind fun a s' _ => hf a s'

theorem locked_endsInText {o : Options} {c : Cni.Call}
    {body : Activity (Except Cni.CallError Bytes)} (hbody : ∀ s' : σ, EndsInText body s') :
    EndsInText (locked o c body) s := by
  refine endsInText_bind fun had s₁ => ?_
  cases had with
  | false => exact textResult_error _
  | true =>
    refine (hbody s₁).bind fun outcome s₂ houtcome => ?_
    exact (Proc.ensures_free _ s₂).bind fun _ _ _ => houtcome

theorem addLocked_endsInText (c : Cni.Call) : EndsInText (addLocked c) s := by
  -- Every leaf is an error or a result that was just encoded, whatever was answered before it.
  refine endsInText_bind fun d s₁ => ?_
  cases d with
  | error e => exact textResult_error _
  | ok d =>
    dsimp only
    cases Plan.resolve c d with
    | error e => exact textResult_error _
    | ok rp =>
      dsimp only
      split
      · refine endsInText_bind fun found s₂ => ?_
        cases found with
        | some a => exact textResult_toBytes _
        | none =>
          refine endsInText_bind fun configured s₃ => ?_
          cases configured with
          | ok pair => exact textResult_toBytes _
          | error e => exact endsInText_bind fun _ _ => textResult_error _
      · refine endsInText_bind fun found s₂ => ?_
        cases found <;> exact textResult_toBytes _

theorem delLocked_endsInText (c : Cni.Call) : EndsInText (delLocked c) s := by
  unfold delLocked
  split
  · refine endsInText_bind fun removed s₁ => ?_
    cases removed with
    | ok _ => exact textResult_nil
    | error e => exact textResult_error _
  · exact textResult_nil

theorem checkLocked_endsInText (c : Cni.Call) : EndsInText (checkLocked c) s := by
  unfold checkLocked
  split
  · refine endsInText_bind fun found s₁ => ?_
    cases found with
    | none => exact textResult_error _
    | some a =>
      refine endsInText_bind fun checked s₂ => ?_
      cases checked with
      | ok _ => exact textResult_nil
      | error e => exact textResult_error _
  · exact textResult_nil

theorem serve_endsInText (o : Options) (r : Cni.Request) : EndsInText (serve o r) s := by
  unfold serve
  cases r.command with
  | add =>
    dsimp only [add]
    cases decode o r.args with
    | error e => exact textResult_error _
    | ok c =>
      refine endsInText_bind fun ready s₁ => ?_
      cases ready with
      | false => exact textResult_error _
      | true => exact locked_endsInText fun _ => addLocked_endsInText c
  | del =>
    dsimp only [del]
    cases decode o r.args with
    | error e => exact textResult_error _
    | ok c => exact locked_endsInText fun _ => delLocked_endsInText c
  | check =>
    dsimp only [checkCall]
    cases decode o r.args with
    | error e => exact textResult_error _
    | ok c => exact locked_endsInText fun _ => checkLocked_endsInText c

end

section

variable {σ : Type} (answer : (q : Ask) → σ → q.Reply × σ) (state : σ)

/-- The result of a request is a text. -/
theorem handle_isText (o : Options) (r : Cni.Request) :
    Cni.IsText ((handle o r).run answer state).1.result := by
  have hserve : (serve o r).Ensures .free state fun outcome _ =>
      Cni.IsText (Cni.Response.ofExcept outcome).result := by
    refine (serve_endsInText o r).mono fun outcome _ houtcome => ?_
    cases outcome with
    | ok bytes => exact houtcome bytes rfl
    | error e => exact ⟨"", rfl⟩
  have hhandle : (handle o r).Ensures .free state fun response _ =>
      Cni.IsText response.result := Proc.ensures_map.2 hserve
  exact hhandle.run fun _ _ _ => trivial

/-! ## Connections -/

theorem spells_responseBytes {response : Cni.Response} (htext : Cni.IsText response.result) :
    Cni.Spells (responseBytes response) response := by
  obtain ⟨line, hwrite, hspells⟩ := response.spells_of_isText htext
  rwa [responseBytes, hwrite]

/-- What comes of a connection on which `received` was sent: the bytes that are written to it, and
the state in which the questions of its request were answered, `state` at first. -/
structure Answered (o : Options) (received : Bytes) (served : Bytes × σ) : Prop where
  /-- A line that spells a response is written just if the first line can be read. -/
  answered : (∃ response, Cni.Spells served.1 response) ↔
    Cni.Readable (Cni.takeLine received).1
  /-- Otherwise nothing is written, and nothing is done. -/
  unreadable : ¬ Cni.Readable (Cni.takeLine received).1 → served = ([], state)
  /-- The request that the first line spells is served, and its response is written. -/
  request : ∀ r, (Cni.readLine Cni.Request.ofDocument? received).1 = .ok r →
    Cni.Spells served.1 ((handle o r).run answer state).1 ∧
      served.2 = ((handle o r).run answer state).2
  /-- That the first line spells no request is written, and nothing is done. -/
  undecodable : Cni.Readable (Cni.takeLine received).1 →
    (∀ r, (Cni.readLine Cni.Request.ofDocument? received).1 ≠ .ok r) →
    Cni.Spells served.1 undecodableRequest ∧ served.2 = state

theorem serveConnection_request {o : Options} {received : Bytes} {r : Cni.Request}
    (hread : (Cni.readLine Cni.Request.ofDocument? received).1 = .ok r) :
    (serveConnection o received).run answer state =
      (responseBytes ((handle o r).run answer state).1, ((handle o r).run answer state).2) := by
  rw [serveConnection, hread]
  exact Proc.run_bind ..

theorem serveConnection_undecodable {o : Options} {received : Bytes} {reason : String}
    (hread : (Cni.readLine Cni.Request.ofDocument? received).1 = .error (.serialization reason)) :
    (serveConnection o received).run answer state = (responseBytes undecodableRequest, state) := by
  rw [serveConnection, hread]
  rfl

theorem serveConnection_failed {o : Options} {received : Bytes} {reason : String}
    (hread : (Cni.readLine Cni.Request.ofDocument? received).1 = .error (.io reason)) :
    (serveConnection o received).run answer state = ([], state) := by
  rw [serveConnection, hread]
  rfl

/-- A connection is answered just if its first line can be read. -/
theorem connection_answered_iff (o : Options) {received : Bytes} (hreceived : received ≠ []) :
    Answered answer state o received ((serveConnection o received).run answer state) := by
  have hread := Cni.readLine_of_ne_nil Cni.Request.ofDocument? hreceived
  rcases Cni.ofLine_cases Cni.Request.ofDocument? (Cni.takeLine received).1 with
    ⟨hunreadable, reason, hline⟩ | ⟨hreadable, hline | ⟨r, hline⟩⟩
  all_goals rw [← hread] at hline
  · rw [serveConnection_failed answer state hline]
    refine ⟨⟨?_, fun h => absurd h hunreadable⟩, fun _ => rfl, fun r hr => ?_,
      fun h => absurd h hunreadable⟩
    · rintro ⟨response, hspells⟩
      exact absurd hspells (Cni.not_spells_nil response)
    · cases hline.symm.trans hr
  · rw [serveConnection_undecodable answer state hline]
    have hspells : Cni.Spells (responseBytes undecodableRequest) undecodableRequest :=
      spells_responseBytes ⟨"", rfl⟩
    refine ⟨⟨fun _ => hreadable, fun _ => ⟨_, hspells⟩⟩, fun h => absurd hreadable h,
      fun r hr => ?_, fun _ _ => ⟨hspells, rfl⟩⟩
    cases hline.symm.trans hr
  · rw [serveConnection_request answer state hline]
    have hspells := spells_responseBytes (handle_isText answer state o r)
    refine ⟨⟨fun _ => hreadable, fun _ => ⟨_, hspells⟩⟩, fun h => absurd hreadable h,
      fun r' hr => ?_, fun _ hnone => absurd hline (hnone r)⟩
    obtain rfl := Except.ok.inj (hline.symm.trans hr)
    exact ⟨hspells, rfl⟩

end

/-- On an empty node, a line that is no text is not answered. -/
theorem unreadable_line_unanswered :
    ([0xFF, Cni.newline] : Bytes) ≠ [] ∧
      ¬ ∃ response, Cni.Spells ((serveConnection {} [0xFF, Cni.newline]).run
        (Episode.answer (Sample.conditions fun _ => none)) ⟨{}, []⟩).1 response := by
  have hsent : ([0xFF, Cni.newline] : Bytes) ≠ [] := List.cons_ne_nil _ _
  have hanswered := connection_answered_iff (Episode.answer (Sample.conditions fun _ => none))
    ⟨{}, []⟩ {} hsent
  refine ⟨hsent, fun hspells => ?_⟩
  obtain ⟨⟨s, hs⟩, -⟩ := hanswered.answered.1 hspells
  cases (Utf8.decode_eq_ok_iff.2 hs).symm.trans (rfl : Utf8.decode [0xFF, Cni.newline] = .error _)

end Agent

end PodAttach
