import PodAttach.Proofs.Framing

/-!
# Messages that are read as they were written

A request or a response is written as an object, and read from the document
that spells this object.

* `Request.ofDocument?_spelled` and `Response.ofDocument?_spelled`: one message, whose payload is
  the bytes of a text.
* `Format` is a kind of messages, and `Spelled` what the lines above say of both kinds.
  `Spelled.sendAll` goes over the messages of a stream by induction.
* `messages_faithful`: what is read of a stream is what was written to it.
-/

namespace PodAttach.Cni

open Json

theorem payload?_spelled (s : String) : payload? (Json.str s).spelled = some (Utf8.encode s) := by
  show ((textOf? (escaped s)).map some).map _ = _
  rw [textOf?_escaped]
  rfl

theorem Command.ofTag?_tag (c : Command) : Command.ofTag? c.tag = some c := by
  cases c <;> rfl

/-- The arguments of a request as they are written. -/
def CallArgs.fields (a : CallArgs) (configuration : String) : List (String × Json) :=
  [("container_id", .str a.containerId), ("netns", .str a.netns), ("ifname", .str a.ifname),
    ("args", .str a.args), ("path", .str a.path), ("network_configuration", .str configuration)]

/-- The members of a request. -/
def Request.fields (r : Request) (configuration : String) : List (String × Json) :=
  [("command", .str r.command.tag), ("cni_args", .obj (r.args.fields configuration))]

theorem Request.toJson_eq_ok {r : Request} {configuration : String}
    (hdecode : Utf8.decode r.args.networkConfiguration = .ok configuration) :
    r.toJson = .ok (.obj (r.fields configuration)) := by
  rw [Request.toJson, hdecode]
  rfl

theorem CallArgs.ofDocument?_spelled {a : CallArgs} {configuration : String}
    (hconfiguration : a.networkConfiguration = Utf8.encode configuration) :
    CallArgs.ofDocument? (Json.obj (a.fields configuration)).spelled = some a := by
  have hrecord := record?_spelled ["container_id", "netns", "ifname", "args", "path",
    "network_configuration"] (a.fields configuration) (by simp [fields])
    (by simp [fields, hasRepeat])
  rw [CallArgs.ofDocument?, hrecord]
  simp [fields, Fields.withDefault?, Table.lookup_cons, text?_spelled, payload?_spelled,
    ← hconfiguration]

theorem Request.ofDocument?_spelled {r : Request} {configuration : String}
    (hconfiguration : r.args.networkConfiguration = Utf8.encode configuration) :
    Request.ofDocument? (Json.obj (r.fields configuration)).spelled = some r := by
  have hkept : (Json.obj (r.fields configuration)).Kept maxDepth := by
    simp [fields, CallArgs.fields, maxDepth, Json.Kept, KeptMembers]
  have hrecord := record?_spelled ["command", "cni_args"] (r.fields configuration)
    (by simp [fields]) (by simp [fields, hasRepeat])
  have hargs := CallArgs.ofDocument?_spelled hconfiguration
  rw [Request.ofDocument?, value?_spelled _ _ hkept, hrecord]
  simp [fields, Fields.required?, Table.lookup_cons, text?_spelled, Command.ofTag?_tag, hargs]

/-! ## Responses -/

theorem Code.ofDocument?_spelled (c : Code) :
    Code.ofDocument? (Json.nat c.number).spelled = some c := by
  cases c <;> decide

theorem CallError.ofDocument?_spelled (e : CallError) :
    CallError.ofDocument? e.toJson.spelled = some e := by
  have hrecord := record?_spelled ["code", "message"]
    [("code", .nat e.code.number), ("message", .str e.message)] (by simp)
    (by simp [hasRepeat])
  rw [CallError.ofDocument?, CallError.toJson, hrecord]
  simp [Fields.required?, Table.lookup_cons, text?_spelled, Code.ofDocument?_spelled]

/-- The members of a response. -/
def Response.fields (r : Response) (result : String) : List (String × Json) :=
  [("cni_result", if r.result.isEmpty then none else some (Json.str result)),
    ("error", r.error.map CallError.toJson)].filterMap fun f => f.2.map (f.1, ·)

theorem Response.toJson_eq_ok {r : Response} {result : String}
    (hdecode : Utf8.decode r.result = .ok result) :
    r.toJson = .ok (.obj (r.fields result)) := by
  rw [Response.toJson, hdecode]
  rfl

theorem optional?_error (e : CallError) :
    Document.optional? CallError.ofDocument? e.toJson.spelled = some (some e) :=
  congrArg (Option.map some) e.ofDocument?_spelled

theorem Response.known_fields (r : Response) (result : String) :
    ∀ m ∈ r.fields result, m.1 ∈ ["cni_result", "error"] := by
  intro m hm
  obtain ⟨⟨k, v?⟩, hf, hv⟩ := List.mem_filterMap.1 hm
  obtain ⟨v, -, rfl⟩ := Option.map_eq_some_iff.1 hv
  simp only [List.mem_cons, List.not_mem_nil, or_false, Prod.mk.injEq] at hf
  rcases hf with ⟨rfl, -⟩ | ⟨rfl, -⟩ <;> simp

theorem Response.hasRepeat_fields (r : Response) (result : String) :
    hasRepeat ((r.fields result).map Prod.fst) = false := by
  obtain ⟨bytes, error⟩ := r
  by_cases hempty : bytes = [] <;> cases error <;> simp [fields, hempty, hasRepeat]

theorem Response.whole_fields (r : Response) (result : String) :
    (Json.obj (r.fields result)).Whole := by
  obtain ⟨bytes, error⟩ := r
  by_cases hempty : bytes = [] <;> cases error <;>
    simp [fields, hempty, Json.Whole, WholeMembers, CallError.toJson, Json.nat]

theorem Response.ofDocument?_spelled {r : Response} {result : String}
    (hresult : r.result = Utf8.encode result) :
    Response.ofDocument? (Json.obj (r.fields result)).spelled = some r := by
  have hrecord := record?_spelled _ _ (r.known_fields result) (r.hasRepeat_fields result)
  rw [Response.ofDocument?, hrecord]
  obtain ⟨bytes, error⟩ := r
  dsimp only at hresult
  subst hresult
  by_cases hempty : Utf8.encode result = [] <;> cases error <;>
    simp [fields, hempty, Fields.withDefault?, Table.lookup_cons, payload?_spelled,
      optional?_error]

/-! ## Kinds of messages -/

/-- The bytes are those of a text. -/
def IsText (bytes : Bytes) : Prop :=
  ∃ s, bytes = Utf8.encode s

theorem isText_encodeChars (cs : List Char) : IsText (Utf8.encodeChars cs) :=
  ⟨String.ofList cs, by rw [Utf8.encode, String.toList_ofList]⟩

/-- A kind of messages: how one is written and read, and the part of it that has to be a text. -/
structure Format (α : Type) where
  write : α → Except ProtocolError Bytes
  read : Json.Document → Option α
  payload : α → Bytes

/-- Requests. -/
def Request.format : Format Request :=
  ⟨Request.writeLine, Request.ofDocument?, fun r => r.args.networkConfiguration⟩

/-- Responses. -/
def Response.format : Format Response :=
  ⟨Response.writeLine, Response.ofDocument?, Response.result⟩

namespace Format

variable {α : Type}

/-- Writes a message to a stream: how that went, and the stream after it. -/
def send (f : Format α) (m : α) (stream : Bytes) : Except ProtocolError Unit × Bytes :=
  match f.write m with
  | .ok line => (.ok (), stream ++ line)
  | .error e => (.error e, stream)

/-- Writes messages to a stream, one after the other. -/
def sendAll (f : Format α) : List α → Bytes → List (Except ProtocolError Unit) × Bytes
  | [], stream => ([], stream)
  | m :: ms, stream =>
    let (sent, stream) := f.send m stream
    let (more, stream) := f.sendAll ms stream
    (sent :: more, stream)

/-- A message whose payload is a text is written as an object that spells it, and another one is
refused. -/
structure Spelled (f : Format α) : Prop where
  written : ∀ m, IsText (f.payload m) → ∃ members, f.write m = .ok (lineOf (.obj members)) ∧
    (Json.obj members).Whole ∧ f.read (Json.obj members).spelled = some m
  refused : ∀ m fault, Utf8.decode (f.payload m) = .error fault →
    f.write m = .error (.ofFault fault)

/-- What messages of a kind are read as is what was written. -/
structure Faithful (f : Format α) : Prop where
  /-- A line has one newline, at its end. -/
  line : ∀ m line, f.write m = .ok line → ∃ body, line = body ++ [newline] ∧ newline ∉ body
  /-- Messages whose payloads are texts are all written, and if no line is too long, the stream is
  read as these messages in their order, and then it is at its end. -/
  read : ∀ ms, (∀ m ∈ ms, IsText (f.payload m)) →
    (∀ m ∈ ms, ∀ line, f.write m = .ok line → line.length ≤ maxLineSize) →
    (f.sendAll ms []).1 = ms.map (fun _ => .ok ()) ∧
      readAll f.read (f.sendAll ms []).2 = ms.map .ok ++ [.error .closed]
  /-- A message whose payload is no text is refused, and nothing of it is written. -/
  refused : ∀ m stream, ¬ IsText (f.payload m) →
    ∃ fault, f.send m stream = (.error (.ofFault fault), stream)

variable {f : Format α}

theorem Spelled.write_cases (hf : f.Spelled) (m : α) :
    IsText (f.payload m) ∨
      ¬ IsText (f.payload m) ∧ ∃ fault, f.write m = .error (.ofFault fault) := by
  cases hdecode : Utf8.decode (f.payload m) with
  | ok s => exact .inl ⟨s, Utf8.decode_eq_ok_iff.1 hdecode⟩
  | error fault =>
    refine .inr ⟨?_, fault, hf.refused m fault hdecode⟩
    rintro ⟨s, hs⟩
    cases hdecode.symm.trans (Utf8.decode_eq_ok_iff.2 hs)

/-- A message whose payload is a text is written on one line, which is read as the message. -/
theorem Spelled.line (hf : f.Spelled) {m : α} (htext : IsText (f.payload m)) :
    ∃ body, f.write m = .ok (body ++ [newline]) ∧ newline ∉ body ∧
      ((body ++ [newline]).length ≤ maxLineSize → ofLine f.read (body ++ [newline]) = .ok m) := by
  obtain ⟨members, hwrite, hwhole, hread⟩ := hf.written m htext
  refine ⟨_, hwrite, Json.oneLine_chars _ hwhole, fun hsize => ?_⟩
  rw [← lineOf, ofLine_lineOf hwhole hsize, ofDocument, hread]

/-- Messages whose payloads are texts are written as the lines from which they are read. -/
theorem Spelled.sendAll (hf : f.Spelled) {ms : List α} (htexts : ∀ m ∈ ms, IsText (f.payload m))
    (hsizes : ∀ m ∈ ms, ∀ line, f.write m = .ok line → line.length ≤ maxLineSize) :
    ∃ lines, (∀ stream, f.sendAll ms stream = (ms.map fun _ => .ok (), stream ++ lines)) ∧
      readAll f.read lines = ms.map .ok ++ [.error .closed] := by
  induction ms with
  | nil => exact ⟨[], fun stream => by rw [List.append_nil]; rfl, rfl⟩
  | cons m ms ih =>
    obtain ⟨lines, hsend, hreadAll⟩ := ih (fun m' hm' => htexts m' (by simp [hm']))
      (fun m' hm' => hsizes m' (by simp [hm']))
    obtain ⟨body, hwrite, hbody, hread⟩ := hf.line (htexts m (by simp))
    have hread := hread (hsizes m (by simp) _ hwrite)
    refine ⟨body ++ newline :: lines, fun stream => ?_, ?_⟩
    · have hone : f.send m stream = (.ok (), stream ++ (body ++ [newline])) := by
        rw [send, hwrite]
      rw [Format.sendAll, hone]
      dsimp only
      rw [hsend]
      simp
    · rw [readAll_line hbody, hread, hreadAll]
      rfl

theorem Spelled.faithful (hf : f.Spelled) : f.Faithful where
  line m line hwrite := by
    rcases hf.write_cases m with htext | ⟨-, fault, herror⟩
    · obtain ⟨body, hbytes, hbody, -⟩ := hf.line htext
      exact ⟨body, Except.ok.inj (hwrite.symm.trans hbytes), hbody⟩
    · cases hwrite.symm.trans herror
  read ms htexts hsizes := by
    obtain ⟨lines, hsend, hread⟩ := hf.sendAll htexts hsizes
    rw [hsend]
    exact ⟨rfl, hread⟩
  refused m stream hpayload := by
    rcases hf.write_cases m with htext | ⟨-, fault, herror⟩
    · exact absurd htext hpayload
    · exact ⟨fault, by rw [send, herror]⟩

end Format

theorem Request.format_spelled : Request.format.Spelled where
  written r := by
    rintro ⟨configuration, hconfiguration⟩
    refine ⟨r.fields configuration, ?_, ?_, Request.ofDocument?_spelled hconfiguration⟩
    · show r.writeLine = _
      rw [Request.writeLine, Request.toJson_eq_ok (Utf8.decode_eq_ok_iff.2 hconfiguration)]
    · simp [fields, CallArgs.fields, Json.Whole, WholeMembers]
  refused r fault hdecode := by
    show r.writeLine = _
    have hjson : r.toJson = .error fault := by
      have hdecode : Utf8.decode r.args.networkConfiguration = .error fault := hdecode
      rw [Request.toJson, hdecode]
      rfl
    rw [Request.writeLine, hjson]

theorem Response.format_spelled : Response.format.Spelled where
  written r := by
    rintro ⟨result, hresult⟩
    refine ⟨r.fields result, ?_, r.whole_fields result, Response.ofDocument?_spelled hresult⟩
    show r.writeLine = _
    rw [Response.writeLine, Response.toJson_eq_ok (Utf8.decode_eq_ok_iff.2 hresult)]
  refused r fault hdecode := by
    show r.writeLine = _
    have hjson : r.toJson = .error fault := by
      have hdecode : Utf8.decode r.result = .error fault := hdecode
      rw [Response.toJson, hdecode]
      rfl
    rw [Response.writeLine, hjson]

/-- Requests and responses are read as they were written, whatever text is in them. -/
theorem messages_faithful : Request.format.Faithful ∧ Response.format.Faithful :=
  ⟨Request.format_spelled.faithful, Response.format_spelled.faithful⟩

namespace Sample

/-- A request whose texts hold newlines, quotes, a control character and one of four bytes. -/
def unruly : Request :=
  ⟨.check, { containerId := "c\n1", args := "\"\\;=\u0001", path := "😀"
             networkConfiguration := Utf8.encode "\x7b\"a\":\n1\x7d" }⟩

theorem length_unruly {line : Bytes} (hline : unruly.writeLine = .ok line) :
    line.length = 152 := by
  have h : unruly.writeLine.toOption.map List.length = some 152 := by decide +kernel
  rw [hline] at h
  exact Option.some.inj h

end Sample

/-- Two requests with newlines in their texts are two lines. -/
theorem unruly_read_back :
    readAll Request.ofDocument? (Request.format.sendAll [Sample.unruly, Sample.unruly] []).2 =
      [.ok Sample.unruly, .ok Sample.unruly, .error .closed] := by
  refine (messages_faithful.1.read [Sample.unruly, Sample.unruly] ?_ ?_).2
  · intro m hm
    obtain rfl : m = Sample.unruly := by simpa using hm
    exact ⟨_, rfl⟩
  · intro m hm line hline
    obtain rfl : m = Sample.unruly := by simpa using hm
    rw [Sample.length_unruly hline]
    decide

end PodAttach.Cni
