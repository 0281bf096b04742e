import PodAttach.Agent.Attach
import PodAttach.Proofs.Encoding
import PodAttach.Proofs.Texts
import PodAttach.Switch.Driven

/-!
# Ports that nobody knows of

For the connector, making a port is one step.  With the tools it takes two
runs: one makes the port, and another one asks for its UUID.  A port is
stranded if it was made and its UUID was not learned; then connecting fails,
and nothing says that the port is there.

* `Database` is what the tools work on, and `Course` what happens to their runs.
* `readUuid_encode`: a UUID is read as it was printed.
* `createPort_makes`: a port is made and known, or an error is reported.
* `Quiet` work leaves the ports alone, as waiting for a number and working on flows do, and
  `after_quiet` goes past such a call.
* `detach_removes` and `detachAfter_connects`: what comes of a port that is known.
* `connect_stranded_iff`: connecting that fails leaves a port just if the port is stranded, or the
  error tells its name and UUID.
-/

namespace PodAttach.Switch

/-! ## What the tools work on -/

/-- Whether a run ended with success. -/
def ToolOutcome.isSuccess : ToolOutcome → Bool
  | .ended success _ _ => success
  | _ => false

/-- How a run goes. -/
inductive Fate where
  /-- The work is done, and what is true is printed. -/
  | done
  /-- The work is done, but what is printed is no UUID. -/
  | garbled (stdout : Bytes)
      (hstdout : Vsctl.isUuid (Text.trim (Utf8.decodeLossy stdout)) = false)
  /-- The run does not end with success; its work may be done all the same. -/
  | failed (outcome : ToolOutcome) (houtcome : outcome.isSuccess = false) (acted : Bool)

/-- What happens to the runs, by how many things were asked for before. -/
structure Course where
  fate : Nat → Fate
  /-- The UUID of a port that is made then. -/
  uuid : Nat → String
  isUuid : ∀ n, Vsctl.isUuid (uuid n) = true
  /-- What is printed for the OpenFlow number of a port: a number, or any other text. -/
  ofport : Nat → Bytes
  /-- The time that has passed. -/
  time : Nat → Duration

/-- A port of a bridge. -/
structure PortRow where
  uuid : String
  bridge : String
  deriving DecidableEq, Repr, Inhabited

/-- The ports by their names, and how many things were asked for. -/
structure Database where
  ports : Table PortRow := .empty
  asked : Nat := 0

namespace Database

/-- What a run of the port tool prints that does its work; nothing if there is no such port. -/
def printed (c : Course) (d : Database) : (args : List String) → Option Bytes
  | [_, "get", "Port", name, "_uuid"] =>
    (d.ports.get? name).map fun row => Utf8.encode (row.uuid ++ "\n")
  | [_, "get", "Interface", name, "ofport"] => (d.ports.get? name).map fun _ => c.ofport d.asked
  | _ => some []

/-- The ports after a run of the port tool that does its work. -/
def portsAfter (c : Course) (d : Database) : (args : List String) → Table PortRow
  | _ :: "--" :: "--if-exists" :: "del-port" :: old :: "--" :: "add-port" :: bridge :: name :: _ =>
    (d.ports.erase old).insert name ⟨c.uuid d.asked, bridge⟩
  | [_, "remove", "Bridge", bridge, "ports", uuid] =>
    d.ports.filter fun _ row => !(row.uuid == uuid && row.bridge == bridge)
  | _ => d.ports

/-- What a run has to print, and the ports after it; the flow tool prints nothing and has nothing
to do with ports. -/
def work (c : Course) (d : Database) (i : Invocation) : Option Bytes × Table PortRow :=
  if i.program = Vsctl.program then (d.printed c i.args, d.portsAfter c i.args)
  else (some [], d.ports)

end Database

namespace Fate

/-- Whether the work of the run is done. -/
def acts : Fate → Bool
  | .failed _ _ acted => acted
  | _ => true

/-- Whether the run ends with success and prints what is true. -/
def isDone : Fate → Bool
  | .done => true
  | _ => false

/-- Whether the run ends with success. -/
def isSuccess : Fate → Bool
  | .failed .. => false
  | _ => true

/-- How the run ends, given what it has to print. -/
def outcome : Fate → Option Bytes → ToolOutcome
  | .done, some stdout => .ended true stdout []
  | .done, none => .ended false [] []
  | .garbled stdout _, _ => .ended true stdout []
  | .failed outcome .., _ => outcome

end Fate

namespace Course

/-- Answers what is asked for. -/
def answer (c : Course) : (q : ToolAsk) → Database → q.Reply × Database
  | .run i, d =>
    let fate := c.fate d.asked
    let (printed, ports) := d.work c i
    (fate.outcome printed, ⟨if fate.acts then ports else d.ports, d.asked + 1⟩)
  | .clock, d => (c.time d.asked, ⟨d.ports, d.asked + 1⟩)
  | .sleep _, d => ((), ⟨d.ports, d.asked + 1⟩)

/-- A port that is made then is stranded: its UUID is not learned, as the run that makes it does
not end with success, or the next one does not print its UUID. -/
def Strands (c : Course) (n : Nat) : Prop :=
  (c.fate n).acts = true ∧ ((c.fate n).isSuccess = true → (c.fate (n + 1)).isDone = false)

end Course

/-! ## Reading a UUID -/

/-- No white space is in a UUID. -/
theorem isBlank_of_isUuid {uuid : String} (huuid : Vsctl.isUuid uuid = true) {ch : Char}
    (hch : ch ∈ uuid.toList) : Text.isBlank ch = false := by
  obtain ⟨-, hall⟩ := Bool.and_eq_true_iff.1 huuid
  obtain ⟨i, hi⟩ := List.mem_iff_getElem?.1 hch
  have hplace := List.all_eq_true.1 hall (ch, i) (List.mem_zipIdx_iff_getElem?.2 hi)
  dsimp only at hplace
  split at hplace
  · rw [eq_of_beq hplace]
    decide
  · exact Text.isBlank_of_isHexDigit hplace

theorem readUuid_of_isUuid {output : String} (houtput : Vsctl.isUuid (Text.trim output) = true) :
    Vsctl.readUuid output = .ok (Text.trim output) := by
  unfold Vsctl.readUuid
  simp only [houtput, if_true]

theorem readUuid_of_not_isUuid {output : String}
    (houtput : Vsctl.isUuid (Text.trim output) = false) :
    ∃ what, Vsctl.readUuid output = .error (.invalidOutput what) := by
  unfold Vsctl.readUuid
  simp only [houtput, Bool.false_eq_true, if_false]
  exact ⟨_, rfl⟩

/-- A UUID is read as it was printed. -/
theorem readUuid_encode {uuid : String} (huuid : Vsctl.isUuid uuid = true) :
    Vsctl.readUuid (Utf8.decodeLossy (Utf8.encode (uuid ++ "\n"))) = .ok uuid := by
  have hne : uuid.toList ≠ [] := by
    intro hnil
    obtain rfl := String.toList_eq_nil_iff.1 hnil
    cases huuid
  have htrim : Text.trim (uuid ++ "\n") = uuid := by
    have hchars : Text.trimChars (uuid.toList ++ ['\n']) = uuid.toList :=
      Text.trimChars_append hne
        (fun ch hch => isBlank_of_isUuid huuid (List.mem_of_mem_head? hch))
        (fun ch hch => isBlank_of_isUuid huuid (List.mem_of_getLast? hch)) (by simp; decide)
    rw [Text.trim, String.toList_append]
    exact (congrArg String.ofList hchars).trans String.ofList_toList
  rw [Utf8.decodeLossy_encode, readUuid_of_isUuid (by rw [htrim, huuid]), htrim]

/-! ## Runs -/

/-- The error does not say that a port stayed. -/
abbrev Plain (e : Error) : Prop :=
  Agent.leftPort? e = none

/-- A run without success is an error of its own. -/
theorem interpret_of_not_isSuccess (i : Invocation) {outcome : ToolOutcome}
    (houtcome : outcome.isSuccess = false) : ∃ e, i.interpret outcome = .error e ∧ Plain e := by
  cases outcome with
  | failed reason => exact ⟨_, rfl, rfl⟩
  | timedOut => exact ⟨_, rfl, rfl⟩
  | ended success stdout stderr =>
    obtain rfl : success = false := houtcome
    exact ⟨_, rfl, rfl⟩

theorem plain_of_interpret {i : Invocation} {outcome : ToolOutcome} {e : Error}
    (he : i.interpret outcome = .error e) : Plain e := by
  cases houtcome : outcome.isSuccess with
  | false =>
    obtain ⟨e', he', hplain⟩ := interpret_of_not_isSuccess i houtcome
    obtain rfl := Except.error.inj (he.symm.trans he')
    exact hplain
  | true =>
    cases outcome <;> simp only [ToolOutcome.isSuccess, Bool.false_eq_true] at houtcome
    subst houtcome
    cases he

section

variable {c : Course} {d : Database}

theorem run_tool (i : Invocation) :
    Proc.run c.answer (Toolwork.run i) d =
      (i.interpret ((c.fate d.asked).outcome (d.work c i).1),
        Database.mk (if (c.fate d.asked).acts then (d.work c i).2 else d.ports)
          (d.asked + 1)) := rfl

theorem work_create (v : Vsctl.Client) (name : String) (externalIds : Table String) :
    d.work c (Vsctl.invocation v (Vsctl.createArgs v.bridge name externalIds)) =
      (some [], (d.ports.erase name).insert name ⟨c.uuid d.asked, v.bridge⟩) :=
  if_pos rfl

theorem work_remove (v : Vsctl.Client) (uuid : String) :
    d.work c (Vsctl.invocation v ["remove", "Bridge", v.bridge, "ports", uuid]) =
      (some [], d.ports.filter fun _ row => !(row.uuid == uuid && row.bridge == v.bridge)) :=
  if_pos rfl

theorem work_uuid (v : Vsctl.Client) (name : String) :
    d.work c (Vsctl.invocation v ["get", "Port", name, "_uuid"]) =
      ((d.ports.get? name).map fun row => Utf8.encode (row.uuid ++ "\n"), d.ports) :=
  if_pos rfl

/-- The run that asks for the UUID of a port: it is read just if all goes well. -/
theorem run_uuid_cases (v : Vsctl.Client) {name : String} {row : PortRow}
    (hrow : d.ports.get? name = some row) (huuid : Vsctl.isUuid row.uuid = true) :
    ∃ answered, Proc.run c.answer (Vsctl.run v ["get", "Port", name, "_uuid"]) d =
        (answered, ⟨d.ports, d.asked + 1⟩) ∧
      if (c.fate d.asked).isDone then ∃ output, answered = .ok output ∧
        Vsctl.readUuid output = .ok row.uuid
      else ∃ e, Plain e ∧ (answered = .error e ∨
        ∃ output, answered = .ok output ∧ Vsctl.readUuid output = .error e) := by
  rw [Vsctl.run, run_tool, work_uuid, ite_self, hrow]
  refine ⟨_, rfl, ?_⟩
  cases hfate : c.fate d.asked with
  | done => exact ⟨_, rfl, readUuid_encode huuid⟩
  | garbled stdout hstdout =>
    obtain ⟨what, hread⟩ := readUuid_of_not_isUuid hstdout
    exact ⟨.invalidOutput what, rfl, .inr ⟨_, rfl, hread⟩⟩
  | failed outcome houtcome acted =>
    obtain ⟨e, he, hplain⟩ := interpret_of_not_isSuccess
      (Vsctl.invocation v ["get", "Port", name, "_uuid"]) houtcome
    exact ⟨e, hplain, .inl he⟩

/-- A run that has something to print is an error just if it does not end with success. -/
theorem interpret_outcome (i : Invocation) (f : Fate) (stdout : Bytes) :
    if f.isSuccess then ∃ output, i.interpret (f.outcome (some stdout)) = .ok output
    else ∃ e, i.interpret (f.outcome (some stdout)) = .error e ∧ Plain e := by
  cases f with
  | done => exact ⟨_, rfl⟩
  | garbled stdout' _ => exact ⟨_, rfl⟩
  | failed outcome houtcome acted => exact interpret_of_not_isSuccess i houtcome

/-! ## Calls -/

theorem acts_of_isSuccess {f : Fate} (hf : f.isSuccess = true) : f.acts = true := by
  cases f with
  | failed outcome houtcome acted => cases hf
  | _ => rfl

/-- A port was made and its UUID is known, or an error is reported; then a port that was made is
stranded. -/
def Makes (c : Course) (v : Vsctl.Client) (name : String) (d : Database)
    (ended : Except Error String × Database) : Prop :=
  (ended.1 = .ok (c.uuid d.asked) ∧ ended.2.ports.get? name = some ⟨c.uuid d.asked, v.bridge⟩ ∧
      ¬ c.Strands d.asked) ∨
    ∃ e, ended.1 = .error e ∧ Plain e ∧
      ((ended.2.ports.get? name).isSome = true ↔ c.Strands d.asked)

theorem createPort_makes (v : Vsctl.Client) {name : String} (externalIds : Table String)
    (hfree : d.ports.get? name = none) :
    Makes c v name d (Proc.run c.answer (Vsctl.createPort v name externalIds) d) := by
  have hmade := interpret_outcome (Vsctl.invocation v (Vsctl.createArgs v.bridge name externalIds))
    (c.fate d.asked) []
  have hrow : ((d.ports.erase name).insert name ⟨c.uuid d.asked, v.bridge⟩).get? name =
      some ⟨c.uuid d.asked, v.bridge⟩ := by
    rw [Table.get?_insert, if_pos rfl]
  rw [Vsctl.createPort, Proc.run_bind, Vsctl.run, run_tool, work_create]
  cases hsuccess : (c.fate d.asked).isSuccess with
  | false =>
    rw [hsuccess] at hmade
    obtain ⟨e, he, hplain⟩ := hmade
    rw [he]
    refine .inr ⟨e, rfl, hplain, ?_⟩
    cases hacts : (c.fate d.asked).acts <;> simp [Course.Strands, hacts, hsuccess, hfree, hrow]
  | true =>
    rw [hsuccess] at hmade
    obtain ⟨output, houtput⟩ := hmade
    have hacts := acts_of_isSuccess hsuccess
    rw [houtput, if_pos hacts]
    dsimp only
    obtain ⟨answered, hrun, hanswered⟩ := run_uuid_cases (c := c)
      (d := ⟨(d.ports.erase name).insert name ⟨c.uuid d.asked, v.bridge⟩, d.asked + 1⟩) v hrow
      (c.isUuid d.asked)
    rw [Proc.run_bind, hrun]
    cases hdone : (c.fate (d.asked + 1)).isDone with
    | true =>
      simp only [hdone, if_true] at hanswered
      obtain ⟨output, rfl, hread⟩ := hanswered
      dsimp only
      rw [hread]
      refine .inl ⟨rfl, hrow, fun hstrands => ?_⟩
      cases (hstrands.2 hsuccess).symm.trans hdone
    | false =>
      simp only [hdone, Bool.false_eq_true, if_false] at hanswered
      have hiff : c.Strands d.asked := ⟨hacts, fun _ => hdone⟩
      have hsome := Option.isSome_of_eq_some hrow
      obtain ⟨e, hplain, rfl | ⟨output, rfl, hread⟩⟩ := hanswered
      · exact .inr ⟨e, rfl, hplain, iff_of_true hsome hiff⟩
      · dsimp only
        rw [hread]
        exact .inr ⟨e, rfl, hplain, iff_of_true hsome hiff⟩

end

/-! ## Work that leaves the ports alone -/

section

variable {c : Course} {α β : Type}

/-- The ports are left alone, and no error says that a port stayed. -/
def Quiet (c : Course) (w : Toolwork (Except Error α)) : Prop :=
  ∀ d, (Proc.run c.answer w d).2.ports = d.ports ∧
    ∀ e, (Proc.run c.answer w d).1 = .error e → Plain e

theorem quiet_ok (a : α) : Quiet c (pure (.ok a)) := by
  refine fun d => ⟨rfl, ?_⟩
  rintro e ⟨⟩

theorem quiet_error {e : Error} (he : Plain e) :
    Quiet c (pure (.error e) : Toolwork (Except _ α)) := by
  refine fun d => ⟨rfl, ?_⟩
  rintro _ ⟨⟩
  exact he

theorem quiet_run {i : Invocation} (hi : ∀ d : Database, (d.work c i).2 = d.ports) :
    Quiet c (Toolwork.run i) := by
  intro d
  rw [run_tool, hi]
  exact ⟨ite_self d.ports, fun e he => plain_of_interpret he⟩

theorem quiet_flowTool {i : Invocation} (hi : i.program = Ofctl.program) :
    Quiet c (Toolwork.run i) := by
  refine quiet_run fun d => ?_
  rw [Database.work, hi]
  rfl

theorem Quiet.bind {w : Toolwork (Except Error α)} (hw : Quiet c w)
    {f : Except Error α → Toolwork (Except Error β)}
    (herror : ∀ e, Plain e → Quiet c (f (.error e))) (hok : ∀ a, Quiet c (f (.ok a))) :
    Quiet c (w >>= f) := by
  intro d
  obtain ⟨hports, hplain⟩ := hw d
  rw [Proc.run_bind, ← hports]
  cases hresult : (Proc.run c.answer w d).1 with
  | error e => exact herror e (hplain e hresult) _
  | ok a => exact hok a _

theorem quiet_clock {f : Duration → Toolwork (Except Error α)} (hf : ∀ t, Quiet c (f t)) :
    Quiet c (Toolwork.clock >>= f) :=
  fun d => hf (c.time d.asked) ⟨d.ports, d.asked + 1⟩

theorem quiet_sleep {w : Toolwork (Except Error α)} (hw : Quiet c w) (t : Duration) :
    Quiet c (Toolwork.sleep t >>= fun _ => w) :=
  fun d => hw ⟨d.ports, d.asked + 1⟩

theorem queryOfport_quiet (v : Vsctl.Client) (name : String) :
    Quiet c (Vsctl.queryOfport v name) :=
  (quiet_run fun _ => rfl).bind (fun _ he => quiet_error he) fun _ => quiet_ok _

theorem pollOfport_quiet (v : Vsctl.Client) (name : String) (started : Duration) (rounds : Nat) :
    Quiet c (Vsctl.pollOfport v name started rounds) := by
  induction rounds with
  | zero => exact quiet_error rfl
  | succ rounds ih =>
    refine (queryOfport_quiet v name).bind (fun e he => quiet_error he) fun found => ?_
    cases found with
    | some ofport => exact quiet_ok ofport
    | none =>
      refine quiet_clock fun now => ?_
      split
      · exact quiet_error rfl
      · exact quiet_sleep ih Vsctl.pollInterval

theorem getOfport_quiet (v : Vsctl.Client) (name : String) : Quiet c (Vsctl.getOfport v name) :=
  quiet_clock fun started => pollOfport_quiet v name started _

theorem install_quiet (o : Ofctl.Client) (name : String) (ips : List Net.Ip) (mac : String)
    (ofport : Nat) : Quiet c (Ofctl.install o name ips mac ofport) :=
  (quiet_flowTool rfl).bind (fun _ _ => quiet_error rfl) fun _ => quiet_ok ()

theorem uninstall_quiet (o : Ofctl.Client) (name : String) :
    Quiet c (Ofctl.uninstall o name) :=
  (quiet_flowTool rfl).bind (fun _ _ => quiet_error rfl) fun _ => quiet_ok ()

end

/-! ## Connecting -/

section

variable {c : Course} {d : Database}

/-- If it went well, no port of that name is left. -/
def Removes (name : String) (ended : Except Error Unit × Database) : Prop :=
  ended.1 = .ok () → ended.2.ports.get? name = none

theorem deletePort_removes (v : Vsctl.Client) {name uuid : String}
    (hrow : d.ports.get? name = some ⟨uuid, v.bridge⟩) :
    Removes name (Proc.run c.answer (Vsctl.deletePort v uuid) d) := by
  have hremoved := interpret_outcome
    (Vsctl.invocation v ["remove", "Bridge", v.bridge, "ports", uuid]) (c.fate d.asked) []
  rw [Vsctl.deletePort, Proc.run_bind, Vsctl.run, run_tool, work_remove]
  intro hok
  cases hsuccess : (c.fate d.asked).isSuccess with
  | false =>
    rw [hsuccess] at hremoved
    obtain ⟨e, he, -⟩ := hremoved
    rw [he] at hok
    cases hok
  | true =>
    rw [hsuccess] at hremoved
    obtain ⟨output, houtput⟩ := hremoved
    rw [houtput, if_pos (acts_of_isSuccess hsuccess)]
    show (d.ports.filter _).get? name = none
    rw [Table.get?_filter, hrow]
    simp

theorem resolve_question (t : Tools) (q : Call) :
    (Proc.question q : Session q.Reply).resolve t.call = t.call q :=
  Proc.bind_done _

/-- After a call that leaves the ports alone. -/
theorem after_quiet {α : Type} (t : Tools) {q : Call} (hq : Quiet c (t.call q))
    {f : q.Reply → Session α} {P : α × Database → Prop}
    (hf : ∀ answered d', d'.ports = d.ports → (∀ e, answered = .error e → Plain e) →
      P (Proc.run c.answer ((f answered).resolve t.call) d')) :
    P (Proc.run c.answer ((Proc.question q >>= f).resolve t.call) d) := by
  rw [Proc.resolve_bind, resolve_question, Proc.run_bind]
  exact hf _ _ (hq d).1 (hq d).2

/-- Removing what was connected halfway goes well only if the port is gone. -/
theorem detach_removes (t : Tools) {name uuid : String} (ofport : Option Nat)
    (hrow : d.ports.get? name = some ⟨uuid, t.vsctl.bridge⟩) :
    Removes name (Proc.run c.answer ((detach name uuid ofport).resolve t.call) d) := by
  cases ofport with
  | none =>
    rw [detach, Session.deletePort, resolve_question]
    exact deletePort_removes t.vsctl hrow
  | some ofport =>
    refine after_quiet t (q := .uninstallFlows name) (uninstall_quiet t.ofctl name)
      fun answered d₁ hports _ => ?_
    rw [← hports] at hrow
    cases answered with
    | error e => rintro ⟨⟩
    | ok _ =>
      dsimp only
      rw [Session.deletePort, resolve_question]
      exact deletePort_removes t.vsctl hrow

/-- What comes of connecting an interface whose name is free. -/
structure Connects (c : Course) (t : Tools) (name : String) (d : Database)
    (ended : Except Error Connected × Database) : Prop where
  /-- A connection has its port. -/
  connected : ∀ p, ended.1 = .ok p → ended.2.ports.get? name = some ⟨p.uuid, t.vsctl.bridge⟩
  /-- The error that says that a port stayed tells its name, and the UUID that it was given. -/
  left : ∀ port uuid ofport cause cleanup,
    ended.1 = .error (.portLeftAttached port uuid ofport cause cleanup) →
      port = name ∧ uuid = c.uuid d.asked
  /-- After another error there is a port of that name just if it is stranded. -/
  failed : ∀ e, ended.1 = .error e → Plain e →
    ((ended.2.ports.get? name).isSome = true ↔ c.Strands d.asked)

/-- Once its port is known, an interface that cannot be connected loses it, or the error tells of
it. -/
theorem detachAfter_connects (t : Tools) {d₀ : Database} {name uuid : String}
    (ofport : Option Nat) {cause : Error} (hcause : Plain cause) (huuid : uuid = c.uuid d₀.asked)
    (hknown : ¬ c.Strands d₀.asked) (hrow : d.ports.get? name = some ⟨uuid, t.vsctl.bridge⟩)
    {ended : Error × Database}
    (hended : Proc.run c.answer ((detachAfter name uuid ofport cause).resolve t.call) d = ended) :
    Connects c t name d₀ (.error ended.1, ended.2) := by
  have hgone := detach_removes (c := c) t ofport hrow
  rw [detachAfter, Proc.resolve_bind, Proc.run_bind] at hended
  generalize Proc.run c.answer ((detach name uuid ofport).resolve t.call) d = detached
    at hgone hended
  obtain ⟨result, d'⟩ := detached
  cases result with
  | ok _ =>
    have hgone : d'.ports.get? name = none := hgone rfl
    obtain rfl : (cause, d') = ended := hended
    refine ⟨by rintro p ⟨⟩, ?_, ?_⟩
    · rintro port uuid' ofport' cause' cleanup ⟨⟩
      cases hcause
    · rintro e ⟨⟩ -
      refine iff_of_false ?_ hknown
      rw [hgone]
      decide
  | error cleanup =>
    obtain rfl : (Error.portLeftAttached name uuid ofport cause cleanup, d') = ended := hended
    refine ⟨by rintro p ⟨⟩, ?_, ?_⟩
    · rintro port uuid' ofport' cause' cleanup' ⟨⟩
      exact ⟨rfl, huuid⟩
    · rintro e ⟨⟩ hplain
      cases hplain

/-- Connecting with the tools leaves a port behind just if its UUID was not learned, or the error
tells of it. -/
theorem connect_stranded_iff (c : Course) (t : Tools) (name : String)
    (externalIds : Table String) (ips : List Net.Ip) (mac : String) {d : Database}
    (hfree : d.ports.get? name = none) :
    Connects c t name d
      (Proc.run c.answer ((connect name externalIds ips mac).resolve t.call) d) := by
  have hmakes := createPort_makes (c := c) t.vsctl externalIds hfree
  rw [connect, Proc.resolve_bind, Session.createPort, resolve_question, Proc.run_bind]
  generalize hmade : Proc.run c.answer (t.call (.createPort name externalIds)) d = made
  have hmade' : Proc.run c.answer (Vsctl.createPort t.vsctl name externalIds) d = made := hmade
  rw [hmade'] at hmakes
  obtain ⟨answered, d₁⟩ := made
  obtain ⟨rfl, hrow, hknown⟩ | ⟨e, rfl, hplain, hiff⟩ := hmakes
  -- The port is known from here on, so whatever fails, it is removed or told of.
  · refine after_quiet t (q := .getOfport name) (getOfport_quiet t.vsctl name)
      fun answered d₂ hports hplain => ?_
    rw [← hports] at hrow
    cases answered with
    | error e =>
      dsimp only
      rw [Proc.resolve_bind, Proc.run_bind]
      exact detachAfter_connects t none (hplain e rfl) rfl hknown hrow rfl
    | ok ofport =>
      refine after_quiet t (q := .installFlows name ips mac ofport)
        (install_quiet t.ofctl name ips mac ofport) fun answered d₃ hports hplain => ?_
      rw [← hports] at hrow
      cases answered with
      | error e =>
        dsimp only
        rw [Proc.resolve_bind, Proc.run_bind]
        exact detachAfter_connects t (some ofport) (hplain e rfl) rfl hknown hrow rfl
      | ok _ =>
        refine ⟨?_, ?_, ?_⟩
        · rintro p ⟨⟩
          exact hrow
        · rintro port uuid ofport' cause cleanup ⟨⟩
        · rintro e ⟨⟩
  -- Nothing is removed when making the port fails.
  · refine ⟨by rintro p ⟨⟩, ?_, ?_⟩
    · rintro port uuid ofport cause cleanup ⟨⟩
      cases hplain
    · rintro _ ⟨⟩ -
      exact hiff

end

namespace Sample

/-- The tool fails that was to tell the UUID of the port that was just made. -/
def unlearned : Course where
  fate n := if n = 1 then .failed (.ended false [] []) rfl false else .done
  uuid _ := "01234567-89ab-4def-8123-456789abcdef"
  isUuid _ := by decide
  ofport _ := Utf8.encode "10\n"
  time _ := .zero

/-- What comes of connecting an interface then, on an empty bridge. -/
def ended : Except Error Connected × Database :=
  Proc.run unlearned.answer ((connect "tap0" .empty [] "").resolve
    (Tools.onBridge "br-int" (.ofSecs 10) .zero).call) {}

end Sample

/-- A port is made and stays, though the error does not tell of it. -/
theorem connect_strands_port :
    Sample.ended.1 = .error (.command "ovs-vsctl --timeout=10 get Port tap0 _uuid" "") ∧
      (Sample.ended.2.ports.get? "tap0").isSome = true := by
  have herror : Sample.ended.1 =
      .error (.command "ovs-vsctl --timeout=10 get Port tap0 _uuid" "") := by rfl
  have hstrands : Sample.unlearned.Strands 0 := ⟨rfl, fun _ => rfl⟩
  have hconnects : Connects Sample.unlearned (Tools.onBridge "br-int" (.ofSecs 10) .zero) "tap0" {}
      Sample.ended := connect_stranded_iff Sample.unlearned _ "tap0" .empty [] "" rfl
  exact ⟨herror, (hconnects.failed _ herror rfl).2 hstrands⟩

end PodAttach.Switch
