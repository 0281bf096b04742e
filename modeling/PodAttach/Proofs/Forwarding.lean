import PodAttach.Plugin.Run
import PodAttach.Proofs.Connections

/-!
# The plugin in front of an agent

The plugin hands on what the runtime wants, and hands back what the agent
makes of it.  Whatever texts are in the request and in the response, two
lines on a connection carry them.

* `Environment.invocation_cases`: what the variables can come to.
* `run_exchange`: a request and its response on a connection.
* `output_error`: an error as it is printed is one object.
* `plugin_transparent`: what the runtime sees is what the agent does.
-/

namespace PodAttach

namespace Cni

/-- What was written is no longer than a line may be. -/
def Fits (written : Except ProtocolError Bytes) : Prop :=
  ∀ line, written = .ok line → line.length ≤ maxLineSize

instance : (written : Except ProtocolError Bytes) → Decidable (Fits written)
  | .ok line => decidable_of_iff (line.length ≤ maxLineSize)
      ⟨fun hfits _ hline => Except.ok.inj hline ▸ hfits, fun hfits => hfits line rfl⟩
  | .error _ => .isTrue (by rintro line ⟨⟩)

/-- A line that was written for a message is read as the message. -/
theorem Format.Spelled.readLine {α : Type} {f : Format α} (hf : f.Spelled) {m : α}
    (htext : IsText (f.payload m)) (hfits : Fits (f.write m)) :
    ∃ line, f.write m = .ok line ∧ (Cni.readLine f.read line).1 = .ok m := by
  obtain ⟨body, hwrite, hbody, hread⟩ := hf.line htext
  refine ⟨_, hwrite, ?_⟩
  rw [readLine_of_ne_nil _ (List.append_ne_nil_of_right_ne_nil body (List.cons_ne_nil _ _)),
    takeLine_append hbody]
  exact hread (hfits _ hwrite)

end Cni

namespace Agent

/-- What a client gets that sends a request on a connection. -/
def exchange (o : Options) (r : Cni.Request) :
    Activity (Except Cni.ProtocolError Cni.Response) :=
  match r.writeLine with
  | .error e => return .error e
  | .ok line => return (Cni.Heard.bytes (← serveConnection o line)).response Cni.clientLimit

section

variable {σ : Type} (answer : (q : Ask) → σ → q.Reply × σ) (state : σ)

/-- The agent in some state, as a client sees it. -/
def peer (o : Options) : Cni.Peer :=
  .listening fun line => .bytes ((serveConnection o line).run answer state).1

theorem run_exchange_fst (o : Options) (r : Cni.Request) :
    ((exchange o r).run answer state).1 = (peer answer state o).send Cni.clientLimit r := by
  rw [exchange, peer, Cni.Peer.send]
  cases r.writeLine with
  | error e => rfl
  | ok line => exact congrArg Prod.fst (Proc.run_bind ..)

/-- A request and its response go through a connection unchanged. -/
theorem run_exchange (o : Options) {r : Cni.Request}
    (htext : Cni.IsText r.args.networkConfiguration) (hrequest : Cni.Fits r.writeLine)
    (hresponse : Cni.Fits ((handle o r).run answer state).1.writeLine) :
    (exchange o r).run answer state =
      (.ok ((handle o r).run answer state).1, ((handle o r).run answer state).2) := by
  obtain ⟨line, hwrite, hread⟩ := Cni.Request.format_spelled.readLine htext hrequest
  obtain ⟨answered, hwritten, hheard⟩ :=
    Cni.Response.format_spelled.readLine (handle_isText answer state o r) hresponse
  have hline : r.writeLine = .ok line := hwrite
  have hbytes : responseBytes ((handle o r).run answer state).1 = answered := by
    have hwritten : ((handle o r).run answer state).1.writeLine = .ok answered := hwritten
    rw [responseBytes, hwritten]
  rw [exchange, hline]
  dsimp only
  rw [Proc.run_bind, serveConnection_request answer state hread, hbytes]
  exact congrArg (·, ((handle o r).run answer state).2) hheard

end

end Agent

namespace Plugin

/-! ## What the runtime wants -/

namespace Environment

variable {env : Environment}

/-- A variable is set and not empty. -/
def Sets (env : Environment) (name value : String) : Prop :=
  env name = some value ∧ value ≠ ""

instance (env : Environment) (name value : String) : Decidable (env.Sets name value) :=
  inferInstanceAs (Decidable (_ ∧ _))

theorem required_of_sets {name value : String} (h : env.Sets name value) :
    env.required name = .ok value := by
  rw [required, h.1]
  simp [h.2]

theorem required_cases (env : Environment) (name : String) :
    (∃ value, env.Sets name value) ∨ ∃ what, env.required name = .error (badEnvironment what) := by
  rw [required]
  cases hvalue : env name with
  | none => exact .inr ⟨_, rfl⟩
  | some value =>
    by_cases hempty : value = ""
    · subst hempty
      exact .inr ⟨_, rfl⟩
    · exact .inl ⟨value, hvalue, hempty⟩

/-- The variables give a request: its command and its arguments are theirs, and the configuration
is what was read. -/
structure Wants (env : Environment) (stdin : Bytes) (r : Cni.Request) : Prop where
  command : env "CNI_COMMAND" = some r.command.name
  containerId : env.Sets "CNI_CONTAINERID" r.args.containerId
  ifname : env.Sets "CNI_IFNAME" r.args.ifname
  /-- Where a container is removed, its namespace may be missing. -/
  netns : if r.command = .del then r.args.netns = (env "CNI_NETNS").getD ""
    else env.Sets "CNI_NETNS" r.args.netns
  args : r.args.args = (env "CNI_ARGS").getD ""
  path : r.args.path = (env "CNI_PATH").getD ""
  networkConfiguration : r.args.networkConfiguration = stdin

theorem Wants.request {stdin : Bytes} {r : Cni.Request} (h : env.Wants stdin r) :
    env.request stdin r.command = .ok r := by
  have hnetns : env.netns r.command = .ok r.args.netns := by
    have := h.netns
    cases hcommand : r.command <;> simp only [hcommand, reduceCtorEq, if_false, if_true] at this
    · exact required_of_sets this
    · rw [this]
      rfl
    · exact required_of_sets this
  rw [Environment.request, required_of_sets h.containerId, required_of_sets h.ifname, hnetns]
  obtain ⟨command, args⟩ := r
  obtain ⟨containerId, netns, ifname, args, path, configuration⟩ := args
  obtain rfl : args = _ := h.args
  obtain rfl : path = _ := h.path
  obtain rfl : configuration = _ := h.networkConfiguration
  rfl

theorem Wants.invocation {stdin : Bytes} {r : Cni.Request} (h : env.Wants stdin r) :
    env.invocation stdin = .ok (.request r) := by
  have hrequest := h.request
  have hset : env.Sets "CNI_COMMAND" r.command.name :=
    ⟨h.command, by cases r.command <;> decide⟩
  rw [Environment.invocation, required_of_sets hset]
  cases hcommand : r.command <;> rw [hcommand] at hrequest <;>
    · show (env.request stdin _).bind _ = _
      rw [hrequest]
      rfl

theorem netns_cases (env : Environment) (command : Cni.Command) :
    (∃ netns, env.netns command = .ok netns ∧
      if command = .del then netns = (env "CNI_NETNS").getD "" else env.Sets "CNI_NETNS" netns) ∨
      ∃ what, env.netns command = .error (badEnvironment what) := by
  have hrequired : (∃ netns, env.required "CNI_NETNS" = .ok netns ∧
      env.Sets "CNI_NETNS" netns) ∨
      ∃ what, env.required "CNI_NETNS" = .error (badEnvironment what) := by
    rcases required_cases env "CNI_NETNS" with ⟨netns, hset⟩ | hrefused
    · exact .inl ⟨netns, required_of_sets hset, hset⟩
    · exact .inr hrefused
  cases command with
  | add => exact hrequired
  | del => exact .inl ⟨_, rfl, rfl⟩
  | check => exact hrequired

theorem request_cases (stdin : Bytes) {command : Cni.Command}
    (hcommand : env "CNI_COMMAND" = some command.name) :
    (∃ r, env.Wants stdin r) ∨
      ∃ what, env.request stdin command = .error (badEnvironment what) := by
  rw [Environment.request]
  rcases required_cases env "CNI_CONTAINERID" with ⟨containerId, hcontainerId⟩ | ⟨what, hrefused⟩
  · rcases required_cases env "CNI_IFNAME" with ⟨ifname, hifname⟩ | ⟨what, hrefused⟩
    · rcases netns_cases env command with ⟨netns, -, hnetns⟩ | ⟨what, hrefused⟩
      · exact .inl ⟨⟨command, ⟨containerId, netns, ifname, (env "CNI_ARGS").getD "",
          (env "CNI_PATH").getD "", stdin⟩⟩, hcommand, hcontainerId, hifname, hnetns, rfl, rfl, rfl⟩
      · rw [required_of_sets hcontainerId, required_of_sets hifname, hrefused]
        exact .inr ⟨what, rfl⟩
    · rw [required_of_sets hcontainerId, hrefused]
      exact .inr ⟨what, rfl⟩
  · rw [hrefused]
    exact .inr ⟨what, rfl⟩

/-- The variables ask for the versions, or give a request, or are refused. -/
theorem invocation_cases (env : Environment) (stdin : Bytes) :
    env "CNI_COMMAND" = some "VERSION" ∨ (∃ r, env.Wants stdin r) ∨
      ∃ what, env.invocation stdin = .error (badEnvironment what) := by
  rcases required_cases env "CNI_COMMAND" with ⟨value, hset⟩ | ⟨what, hrefused⟩
  · by_cases hversion : value = "VERSION"
    · exact .inl (hversion ▸ hset.1)
    refine .inr ?_
    rw [Environment.invocation, required_of_sets hset]
    by_cases hcommand : ∃ c : Cni.Command, value = c.name
    · obtain ⟨command, rfl⟩ := hcommand
      rcases request_cases stdin hset.1 with hwants | ⟨what, hrefused⟩
      · exact .inl hwants
      · refine .inr ⟨what, ?_⟩
        cases command <;>
        · show (env.request stdin _).bind _ = _
          rw [hrefused]
          rfl
    · have hadd : value ≠ "ADD" := fun h => hcommand ⟨.add, h⟩
      have hdel : value ≠ "DEL" := fun h => hcommand ⟨.del, h⟩
      have hcheck : value ≠ "CHECK" := fun h => hcommand ⟨.check, h⟩
      refine .inr ⟨"unknown CNI_COMMAND: " ++ value, ?_⟩
      simp only [bind, Except.bind]
      rfl
  · refine .inr (.inr ⟨what, ?_⟩)
    rw [Environment.invocation, hrefused]
    rfl

end Environment

/-! ## What is printed -/

/-- The version in which the runtime is spoken to: that of the configuration, if it gives one. -/
structure Speaks (stdin : Bytes) (version : String) : Prop where
  given : ∀ c, Cni.NetConf.parse? stdin = some c → c.cniVersion ≠ "" → version = c.cniVersion
  usual : (∀ c, Cni.NetConf.parse? stdin = some c → c.cniVersion = "") → version = "0.4.0"

/-- The bytes are an error on a line of its own, in the version that belongs to a configuration. -/
def Reports (stdin : Bytes) (e : Cni.CallError) (bytes : Bytes) : Prop :=
  ∃ body version, bytes = body ++ [Cni.newline] ∧ Cni.newline ∉ body ∧ Speaks stdin version ∧
    Json.parse? body = some (.obj [("cniVersion", .str version), ("code", .nat e.code.number),
      ("msg", .str e.message)])

namespace Start

variable {s : Start} {stdin : Bytes}

theorem configuration_eq (hstdin : s.stdin = .ok stdin)
    (hversion : s.env "CNI_COMMAND" ≠ some "VERSION") : s.configuration = stdin := by
  rw [configuration, asksVersion, hstdin]
  simp [hversion]

theorem invocation_eq (hstdin : s.stdin = .ok stdin)
    (hversion : s.env "CNI_COMMAND" ≠ some "VERSION") :
    s.invocation = s.env.invocation stdin := by
  rw [invocation, asksVersion, hstdin]
  simp [hversion]

theorem speaks_version (s : Start) : Speaks s.configuration s.version := by
  rw [version]
  cases hparse : Cni.NetConf.parse? s.configuration with
  | none => exact ⟨fun c hc _ => (by cases hparse.symm.trans hc), fun _ => rfl⟩
  | some c =>
    by_cases hempty : c.cniVersion = ""
    · refine ⟨fun c' hc' hne => ?_, fun _ => by simp [hempty, usualVersion]⟩
      obtain rfl := Option.some.inj (hparse.symm.trans hc')
      exact absurd hempty hne
    · refine ⟨fun c' hc' _ => ?_, fun hall => absurd (hall c hparse) hempty⟩
      obtain rfl := Option.some.inj (hparse.symm.trans hc')
      simp [hempty]

/-- The members of an error are in the order of their keys. -/
theorem normal_errorOutput (s : Start) (e : Cni.CallError) :
    (s.errorOutput e).normal = s.errorOutput e := by
  have hcode : ¬ Text.Before "code" "cniVersion" := by decide
  have hmessage : ¬ Text.Before "msg" "cniVersion" ∧ ¬ Text.Before "msg" "code" := by decide
  simp [errorOutput, Json.normal, Json.normalMembers, Table.put, Json.nat, hcode, hmessage]

/-- An error is printed as one object on a line of its own. -/
theorem output_error (s : Start) (e : Cni.CallError) :
    Reports s.configuration e (s.output (.error e)) := by
  have hcode : (e.code.number : Int) ≤ Json.Numeral.maxWhole ∧
      -(Json.Numeral.minWhole : Int) ≤ e.code.number := by
    cases e.code <;> decide
  have hkept : (s.errorOutput e).Kept Json.maxDepth := by
    simp [errorOutput, Json.maxDepth, Json.Kept, Json.KeptMembers, Json.nat, hcode]
  refine ⟨_, s.version, rfl, Json.oneLine_chars _ (hkept.whole _ _), s.speaks_version, ?_⟩
  obtain ⟨d, hparse, hvalue⟩ := Json.kept_chars hkept
  rw [Json.parse?, hparse]
  dsimp only
  rw [hvalue, s.normal_errorOutput e]
  rfl

/-! ## In front of an agent -/

/-- The plugin's work, with an agent that answers its requests. -/
def session (s : Start) (o : Agent.Options) : Agent.Activity (Except Cni.CallError Bytes) :=
  s.work.resolve (Agent.exchange o)

section

open Agent

variable {σ : Type} (answer : (q : Ask) → σ → q.Reply × σ) (state : σ)

/-- The session ends as the plugin does in front of this agent. -/
theorem run_session_fst (s : Start) (o : Options) :
    ((s.session o).run answer state).1 = s.outcome (peer answer state o) := by
  rw [session, outcome, work]
  cases s.invocation with
  | error e => rfl
  | ok invocation =>
    cases invocation with
    | version => rfl
    | request r =>
      dsimp only [forward, Proc.question, Proc.ask_bind, Proc.resolve_ask, Proc.run_ask]
      rw [Proc.run_bind, run_exchange_fst]
      rcases (peer answer state o).send Cni.clientLimit r with e | ⟨bytes, _ | e⟩ <;> rfl

/-- An error is reported: it is printed, and the plugin fails. -/
structure Fails (s : Start) (stdin : Bytes) (agent : Cni.Peer) (e : Cni.CallError) : Prop where
  printed : Reports stdin e (s.printed agent)
  failed : ∀ prints, s.succeeds agent prints = false

/-- What the runtime sees of a request to an agent is what the agent makes of it. -/
structure Forwarded (s : Start) (stdin : Bytes) (o : Options) (r : Cni.Request) : Prop where
  /-- The agent serves the request, and does nothing else. -/
  session : (s.session o).run answer state =
    (s.outcome (peer answer state o), ((handle o r).run answer state).2)
  /-- A result is printed as it is. -/
  result : ((handle o r).run answer state).1.error = none →
    s.printed (peer answer state o) = ((handle o r).run answer state).1.result ∧
      ∀ prints, prints ((handle o r).run answer state).1.result = true →
        s.succeeds (peer answer state o) prints = true
  /-- An error is reported. -/
  error : ∀ e, ((handle o r).run answer state).1.error = some e →
    s.Fails stdin (peer answer state o) e

/-- The plugin's session over an exchange that went well. -/
theorem run_session {s : Start} {o : Options} {r : Cni.Request}
    (hinvocation : s.invocation = .ok (.request r)) {response : Cni.Response} {state' : σ}
    (hexchange : (exchange o r).run answer state = (.ok response, state')) :
    (s.session o).run answer state =
      (match response.error with
        | some e => .error e
        | none => .ok response.result, state') := by
  rw [session, work, hinvocation]
  dsimp only [forward, Proc.question, Proc.ask_bind, Proc.resolve_ask]
  rw [Proc.run_bind, hexchange]
  obtain ⟨bytes, error⟩ := response
  cases error <;> rfl

theorem fails_of_outcome {s : Start} {agent : Cni.Peer} {e : Cni.CallError}
    (houtcome : s.outcome agent = .error e) : s.Fails s.configuration agent e := by
  refine ⟨?_, fun prints => ?_⟩
  · rw [printed, houtcome]
    exact s.output_error e
  · rw [succeeds, houtcome]
    rfl

theorem forwarded_of_wants {s : Start} {stdin : Bytes} {o : Options} {r : Cni.Request}
    (hstdin : s.stdin = .ok stdin) (htext : Cni.IsText stdin) (hwants : s.env.Wants stdin r)
    (hrequest : Cni.Fits r.writeLine)
    (hresponse : Cni.Fits ((handle o r).run answer state).1.writeLine) :
    s.Forwarded answer state stdin o r := by
  have hversion : s.env "CNI_COMMAND" ≠ some "VERSION" := by
    rw [hwants.command]
    cases r.command <;> decide
  have hpayload : Cni.IsText r.args.networkConfiguration := by
    rwa [hwants.networkConfiguration]
  have hinvocation : s.invocation = .ok (.request r) := by
    rw [invocation_eq hstdin hversion, hwants.invocation]
  have hrun := run_session answer state hinvocation
    (run_exchange answer state o hpayload hrequest hresponse)
  -- The session ends as the plugin does, so its run says what is printed.
  have houtcome := run_session_fst answer state s o
  rw [hrun] at houtcome
  have hconfiguration := configuration_eq hstdin hversion
  refine ⟨by rw [hrun, ← houtcome], fun hnone => ?_, fun e hsome => ?_⟩
  · rw [hnone] at houtcome
    refine ⟨?_, fun prints hprints => ?_⟩
    · rw [printed, ← houtcome]
      rfl
    · rw [succeeds, ← houtcome]
      simp [isSuccess, hprints]
  · rw [hsome] at houtcome
    rw [← hconfiguration]
    exact fails_of_outcome houtcome.symm

end

/-- The runtime sees of the agent what it does for the request that the variables give, and no
agent is asked where they give none. -/
theorem plugin_transparent (s : Start) {stdin : Bytes} (hstdin : s.stdin = .ok stdin)
    (htext : Cni.IsText stdin) (o : Agent.Options) {σ : Type}
    (answer : (q : Agent.Ask) → σ → q.Reply × σ) (state : σ) :
    (∀ r, s.env.Wants stdin r → Cni.Fits r.writeLine →
      Cni.Fits ((Agent.handle o r).run answer state).1.writeLine →
      s.Forwarded answer state stdin o r) ∧
    (s.env "CNI_COMMAND" ≠ some "VERSION" → (∀ r, ¬ s.env.Wants stdin r) →
      ∃ e : Cni.CallError, e.code = .invalidEnvironmentVariables ∧ s.work = .done (.error e) ∧
        ∀ agent, s.Fails stdin agent e) := by
  refine ⟨fun r hwants => forwarded_of_wants answer state hstdin htext hwants,
    fun hversion hnone => ?_⟩
  rcases s.env.invocation_cases stdin with hcommand | ⟨r, hwants⟩ | ⟨what, hrefused⟩
  · exact absurd hcommand hversion
  · exact absurd hwants (hnone r)
  · have hwork : s.work = .done (.error (badEnvironment what)) := by
      rw [work, invocation_eq hstdin hversion, hrefused]
      rfl
    refine ⟨badEnvironment what, rfl, hwork, fun agent => ?_⟩
    have houtcome : s.outcome agent = .error (badEnvironment what) := by
      rw [outcome, hwork]
      rfl
    rw [← configuration_eq hstdin hversion]
    exact fails_of_outcome houtcome

end Start

namespace Sample

/-- The variables of an Add. -/
def env : Environment := fun name =>
  [("CNI_COMMAND", "ADD"), ("CNI_CONTAINERID", "c1"), ("CNI_NETNS", "/proc/1/ns/net"),
    ("CNI_IFNAME", "eth0"), ("CNI_ARGS", "K8S_POD_NAME=p1")].lookup name

/-- An agent on an empty node. -/
def agent : Cni.Peer :=
  Agent.peer (Agent.Episode.answer (Agent.Sample.conditions fun _ => none)) ⟨{}, []⟩ {}

end Sample

/-- The result of an Add is printed. -/
theorem add_result_printed :
    Start.printed ⟨Sample.env, .ok (Agent.Sample.args "c1").networkConfiguration⟩ Sample.agent =
      (Agent.serveAlone {} (Agent.Sample.conditions fun _ => none) ⟨.add, Agent.Sample.args "c1"⟩
        {}).1.result ∧
      (Agent.serveAlone {} (Agent.Sample.conditions fun _ => none) ⟨.add, Agent.Sample.args "c1"⟩
        {}).1.result ≠ [] := by
  have hserved : (Agent.serveAlone {} (Agent.Sample.conditions fun _ => none)
      ⟨.add, Agent.Sample.args "c1"⟩ {}).1.error = none ∧
      (Agent.serveAlone {} (Agent.Sample.conditions fun _ => none)
        ⟨.add, Agent.Sample.args "c1"⟩ {}).1.result ≠ [] ∧
      Cni.Fits (Agent.serveAlone {} (Agent.Sample.conditions fun _ => none)
        ⟨.add, Agent.Sample.args "c1"⟩ {}).1.writeLine := by decide +kernel
  have hwants : Sample.env.Wants (Agent.Sample.args "c1").networkConfiguration
      ⟨.add, Agent.Sample.args "c1"⟩ :=
    ⟨rfl, by decide, by decide, by decide, rfl, rfl, rfl⟩
  refine ⟨?_, hserved.2.1⟩
  obtain ⟨hforwarded, -⟩ := Start.plugin_transparent
    ⟨Sample.env, .ok (Agent.Sample.args "c1").networkConfiguration⟩ rfl ⟨_, rfl⟩ {}
    (Agent.Episode.answer (Agent.Sample.conditions fun _ => none)) ⟨{}, []⟩
  exact ((hforwarded _ hwants (by decide +kernel) hserved.2.2).result hserved.1).1

end Plugin

end PodAttach
